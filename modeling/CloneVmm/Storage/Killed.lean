import CloneVmm.Storage.Overlay
import CloneVmm.Storage.Recording

namespace CloneVmm.Storage

open CloneVmm.Lib CloneVmm.Lib.Prog

inductive KillOp
  | op (op : DiskOp)
  | kill
  | killFlushing (n : Nat)

def KillOp.InBounds (size : Nat) : KillOp → Prop
  | op o => o.InBounds size
  | kill | killFlushing _ => True

def KillOp.Kills : KillOp → Prop
  | op _ => False
  | kill | killFlushing _ => True

def KillOp.Spares (p : Nat) : KillOp → Prop
  | op (.writeAt offset data) => p < offset ∨ offset + data.length ≤ p
  | _ => True

structure KillDisk where
  content : ByteStore
  written : Set Nat
  safe : Set Nat
  used : Nat

/-- What a disk over `base` may answer in a file of at most `limit` bytes. A cluster written for the first time is
safe from the next flush on. -/
inductive KillStep (limit clusterSize : Nat) (base : ByteStore) : KillDisk → KillOp × Answer → KillDisk → Prop
  | read (d : KillDisk) (offset n : Nat) :
      KillStep limit clusterSize base d (.op (.readAt offset n), ⟨.ok (readBytes d.content offset n), d.used⟩) d
  | write (d : KillDisk) (offset : Nat) (data : Bytes) (written : Set Nat) (used : Nat) (hsub : d.written ⊆ written)
      (hall : ∀ p, offset ≤ p → p < offset + data.length → p / clusterSize ∈ written)
      (hused : used ≤ d.used + writeRoom clusterSize offset data.length) :
      KillStep limit clusterSize base d (.op (.writeAt offset data), ⟨.ok [], used⟩)
        ⟨writeBytes d.content offset data, written, d.safe, used⟩
  | cut (d : KillDisk) (offset : Nat) (data : Bytes) (k : Nat) (written : Set Nat) (used : Nat)
      (hsub : d.written ⊆ written)
      (hchanged : ∀ p, p / clusterSize ∉ written → writeBytes d.content offset (data.take k) p = d.content p)
      (hused : used ≤ d.used + writeRoom clusterSize offset data.length) (hfull : limit < used) :
      KillStep limit clusterSize base d (.op (.writeAt offset data), ⟨.error .refused, used⟩)
        ⟨writeBytes d.content offset (data.take k), written, d.safe, used⟩
  | flush (d : KillDisk) (used : Nat) (hused : used ≤ d.used + flushRoom clusterSize d.used) :
      KillStep limit clusterSize base d (.op .flush, ⟨.ok [], used⟩) ⟨d.content, d.written, d.written, used⟩
  | unflushed (d : KillDisk) (used : Nat) (hused : used ≤ d.used + flushRoom clusterSize d.used) (hfull : limit < used) :
      KillStep limit clusterSize base d (.op .flush, ⟨.error .refused, used⟩) ⟨d.content, d.written, d.written, used⟩
  | reopen (d : KillDisk) (used : Nat) (hused : used ≤ d.used + flushRoom clusterSize d.used) :
      KillStep limit clusterSize base d (.op .reopen, ⟨.ok [], used⟩) ⟨d.content, d.written, d.written, used⟩
  | kill (d : KillDisk) (op : KillOp) (hop : op.Kills) (content : ByteStore) (kept : Set Nat) (used : Nat)
      (hsafe : d.safe ⊆ kept) (hwritten : kept ⊆ d.written) (hkept : ∀ p, p / clusterSize ∈ kept → content p = d.content p)
      (hlost : ∀ p, p / clusterSize ∉ kept → content p = base p)
      (hused : used ≤ d.used + flushRoom clusterSize d.used) :
      KillStep limit clusterSize base d (op, ⟨.ok [], used⟩) ⟨content, kept, kept, used⟩

section Inversion

variable {limit clusterSize : Nat} {base : ByteStore} {d d' : KillDisk} {r : Answer}

theorem KillStep.read_ok {offset n : Nat} (h : KillStep limit clusterSize base d (.op (.readAt offset n), r) d') :
    r.result = .ok (readBytes d.content offset n) := by
  cases h with
  | read => rfl
  | kill _ hop => exact hop.elim

theorem KillStep.write_ok {offset : Nat} {data : Bytes}
    (h : KillStep limit clusterSize base d (.op (.writeAt offset data), r) d')
    (hroom : d.used + writeRoom clusterSize offset data.length ≤ limit) :
    r.result = .ok [] ∧ d'.content = writeBytes d.content offset data ∧ d'.safe = d.safe ∧
      d'.used ≤ d.used + writeRoom clusterSize offset data.length ∧
      ∀ p, offset ≤ p → p < offset + data.length → p / clusterSize ∈ d'.written := by
  cases h with
  | write _ _ written used hsub hall hused => exact ⟨rfl, rfl, rfl, hused, hall⟩
  | cut _ _ k written used hsub hchanged hused hfull => exact absurd (hused.trans hroom) (Nat.not_le.mpr hfull)
  | kill _ hop => exact hop.elim

theorem KillStep.flush_ok (h : KillStep limit clusterSize base d (.op .flush, r) d')
    (hroom : d.used + flushRoom clusterSize d.used ≤ limit) :
    r.result = .ok [] ∧ d'.content = d.content ∧ d'.safe = d.written ∧ d'.used ≤ d.used + flushRoom clusterSize d.used := by
  cases h with
  | flush used hused => exact ⟨rfl, rfl, rfl, hused⟩
  | unflushed used hused hfull => exact absurd (hused.trans hroom) (Nat.not_le.mpr hfull)
  | kill _ hop => exact hop.elim

theorem KillStep.kill_ok {op : KillOp} (h : KillStep limit clusterSize base d (op, r) d') (hop : op.Kills) :
    r.result = .ok [] ∧ ∀ p, p / clusterSize ∈ d.safe → d'.content p = d.content p := by
  cases h with
  | kill _ _ content kept used hsafe hwritten hkept hlost hused => exact ⟨rfl, fun p hp => hkept p (hsafe hp)⟩
  | read | write | cut | flush | unflushed | reopen => exact hop.elim

end Inversion

/-- A byte that a kill does not change. -/
def KillDisk.Durable (base : ByteStore) (cs p : Nat) (x : UInt8) (d : KillDisk) : Prop :=
  d.content p = x ∧ d.safe ⊆ d.written ∧ (p / cs ∈ d.safe ∨ base p = x)

theorem KillDisk.Durable.step {base : ByteStore} {limit cs p : Nat} {x : UInt8} {d d' : KillDisk} {op : KillOp}
    {r : Answer} (h : d.Durable base cs p x) (hstep : KillStep limit cs base d (op, r) d')
    (hspares : op.Spares p) : d'.Durable base cs p x := by
  obtain ⟨hx, hsub, hsafe⟩ := h
  cases hstep with
  | read offset n => exact ⟨hx, hsub, hsafe⟩
  | write offset data written used hsub' hall =>
    exact ⟨(writeBytes_outside hspares).trans hx, hsub.trans hsub', hsafe⟩
  | cut offset data k written used hsub' hchanged =>
    have hle := List.length_take_le' k data
    have hout : p < offset ∨ offset + (data.take k).length ≤ p := hspares.imp_right (by omega)
    exact ⟨(writeBytes_outside hout).trans hx, hsub.trans hsub', hsafe⟩
  | flush | unflushed | reopen => exact ⟨hx, le_refl _, hsafe.imp_left fun h => hsub h⟩
  | kill op hop content kept used hkept hwritten hcontent hlost =>
    refine ⟨?_, le_refl _, hsafe.imp_left fun h => hkept h⟩
    by_cases hp : p / cs ∈ kept
    · exact (hcontent p hp).trans hx
    · exact (hlost p hp).trans (hsafe.resolve_left fun h => hp (hkept h))

section Run

variable {B : Type} [Backing B] (host : Host) (openBacking : PathBuf → Except Qcow2Error B) (path : PathBuf)

def Qcow2File.kill (q : Qcow2File B) : Except Qcow2Error Bytes × Option (Qcow2File B) :=
  ((Qcow2File.openFile openBacking path q.file).map fun _ => [],
    (Qcow2File.openFile openBacking path q.file).toOption)

def KillOp.run (q : Qcow2File B) : KillOp → Except Qcow2Error Bytes × Option (Qcow2File B)
  | op o => o.run host openBacking path q
  | kill => q.kill openBacking path
  | killFlushing n => Qcow2File.kill openBacking path ((Qcow2File.flushUntil host n).exec q).2

def killOutcomes : Qcow2File B → List KillOp → List Answer
  | _, [] => []
  | q, op :: ops =>
    ⟨(op.run host openBacking path q).1, ((op.run host openBacking path q).2.map (·.nextAllocOffset)).getD 0⟩ ::
      (((op.run host openBacking path q).2.map fun q' => killOutcomes q' ops).getD [])

end Run

namespace Qcow2File

section Killed

variable {B : Type} {host : Host} {q q' : Qcow2File B} {openBacking : PathBuf → Except Qcow2Error B} {path : PathBuf}

def killed (q : Qcow2File B) : Qcow2File B :=
  ⟨q.file, q.header, q.storedL1, q.storedTable, ∅, 0, alignUp q.file.len q.header.clusterSize, q.backing⟩

theorem l2Offset_of_lags {i off : Nat} (h : Lags q.l1Table q'.l1Table) (hoff : q.l2Offset i = some off) :
    q'.l2Offset i = some off := by
  obtain ⟨e, he, hmask⟩ := Option.bind_eq_some_iff.mp hoff
  rcases h i e he with rfl | he'
  · rw [Nat.zero_and, if_pos rfl] at hmask
    cases hmask
  · rw [l2Offset, he', Option.bind_some, hmask]

theorem dataOffset_of_lags {g off : Nat} (hentries : q'.header.l2EntriesPerTable = q.header.l2EntriesPerTable)
    (hl1 : Lags q.l1Table q'.l1Table) (hl2 : ∀ i off, q.l2Offset i = some off → Lags (q.l2View i off) (q'.l2View i off))
    (hoff : q.dataOffset g = some off) : q'.dataOffset g = some off := by
  obtain ⟨table, htable, hrest⟩ := Option.bind_eq_some_iff.mp hoff
  obtain ⟨e, he, hmask⟩ := Option.bind_eq_some_iff.mp hrest
  rcases hl2 _ table htable _ e he with rfl | he'
  · rw [Nat.zero_and, if_pos rfl] at hmask
    cases hmask
  · rw [dataOffset, hentries, l2Offset_of_lags hl1 htable, Option.bind_some, he', Option.bind_some, hmask]

theorem Lagging.l2Offset_killed (h : Lagging q) {i off : Nat} (hoff : q.killed.l2Offset i = some off) :
    q.l2Offset i = some off := l2Offset_of_lags h.l1 hoff

theorem Lagging.dataOffset_killed (h : Lagging q) {g off : Nat} (hoff : q.killed.dataOffset g = some off) :
    q.dataOffset g = some off :=
  dataOffset_of_lags (q := q.killed) rfl h.l1 (fun i table htable => h.l2 i table (h.l2Offset_killed htable)) hoff

theorem Recorded.dataOffset_killed (h : Recorded q q') (hlag : Lagging q) {g off : Nat}
    (hoff : q.killed.dataOffset g = some off) : q'.killed.dataOffset g = some off :=
  dataOffset_of_lags (q := q.killed) h.entries h.l1 (fun i table htable => (h.l2 i table (hlag.l2Offset_killed htable)).2) hoff

theorem lagging_killed (q : Qcow2File B) : Lagging q.killed := ⟨.refl _, fun _ _ _ => .refl _⟩

theorem Lagging.place_killed (h : Lagging q) (hsound : Sound host [] q) {o : Owner} {off : Nat}
    (hoff : q.killed.place [] o = some off) : q.place [] o = some off := by
  cases o with
  | refcountBlock i =>
    change (if q.storedTable.getD i 0 = 0 then none else some (q.storedTable.getD i 0)) = some off at hoff
    rcases hsound.stored i with hzero | hblock
    · rw [if_pos hzero] at hoff
      cases hoff
    · rw [hblock] at hoff
      exact hoff
  | l2 i => exact h.l2Offset_killed hoff
  | data g => exact h.dataOffset_killed hoff
  | header | l1 i | refcountTable i | reserved i => exact hoff

theorem Lagging.sound_killed (h : Lagging q) (hsound : Sound host [] q) (hlimit : host.limit ≤ 2 ^ 54) :
    Sound host [] q.killed := by
  have hcs := clusterSize_bounds hsound.fits
  have hlen := hsound.lenLimit
  refine ⟨hsound.fits, hsound.onDisk, tableAt_length _ _ _, ?_, ?_, ?_, hsound.l1Inside, hsound.tableInside, ?_, ?_, ?_,
    ?_, hlen⟩
  · intro e he
    rcases h.l1.mem he with rfl | hmem
    · exact Or.inl rfl
    · exact hsound.l1Good e hmem
  · intro i off hoff e he
    have hoff' := h.l2Offset_killed hoff
    rcases (h.l2 i off hoff').mem he with rfl | hmem
    · exact Or.inl rfl
    · exact hsound.l2Good i off hoff' e hmem
  · intro i entry hentry
    cases hentry
  · exact fun i => Or.inr rfl
  · exact hsound.placed.of_embedding id Function.injective_id fun o off hoff => h.place_killed hsound hoff
  · have hnext : q.file.len ≤ alignUp q.file.len q.header.clusterSize := le_alignUp (by omega) (by omega)
    exact hnext
  · exact Nat.dvd_mul_left _ _

theorem openFile_killed (hsound : Sound host [] q) (hnamed : Named openBacking path q) :
    openFile openBacking path q.file = .ok q.killed := by
  have hl1 : readTable q.file q.header.l1TableOffset q.header.l1Size = .ok q.storedL1 := readTable_eq hsound.l1Inside
  have htable : readTable q.file q.header.refcountTableOffset
      (q.header.refcountTableClusters * q.header.clusterSize / 8) = .ok q.storedTable := by
    apply readTable_eq
    have := Nat.div_mul_le_self (q.header.refcountTableClusters * q.header.clusterSize) 8
    have := hsound.tableInside
    omega
  unfold openFile
  rw [hsound.onDisk]
  change (readTable q.file q.header.l1TableOffset q.header.l1Size >>= _) = _
  rw [hl1]
  change (readTable q.file q.header.refcountTableOffset _ >>= _) = _
  rw [htable]
  change (openHeaderBacking openBacking path q.file q.header >>= _) = _
  rw [hnamed.opens]
  rfl

theorem Lagging.byteAt_killed (h : Lagging q) {base : ByteStore} {pos : Nat}
    (hkept : q.killed.dataOffset (pos / q.header.clusterSize) ≠ none) : q.killed.byteAt base pos = q.byteAt base pos := by
  obtain ⟨off, hoff⟩ := Option.ne_none_iff_exists'.mp hkept
  rw [byteAt_some hoff, byteAt_some (h.dataOffset_killed hoff)]
  rfl

theorem Lagging.holds_killed [Backing B] {base content : ByteStore} (h : Lagging q)
    (hholds : Holds host base content q) (hlimit : host.limit ≤ 2 ^ 54) :
    Holds host base (q.killed.byteAt base) q.killed :=
  have htable : TableOk host q.reopened := tableOk_reopened q
  ⟨h.sound_killed hholds.sound hlimit, ⟨htable.upper, htable.lower⟩, hholds.rests, hholds.covers, rfl⟩

def mapped (q : Qcow2File B) : Set Nat := {g | q.dataOffset g ≠ none}

theorem ne_none_of_imp {o o' : Option Nat} (h : ∀ off, o = some off → o' = some off) (ho : o ≠ none) : o' ≠ none := by
  obtain ⟨off, hoff⟩ := Option.ne_none_iff_exists'.mp ho
  rw [h off hoff]
  exact Option.some_ne_none off

theorem killed_eq_reopened (hstored : q.L1Stored) : q.killed = q.reopened := by
  have hl1 : q.storedL1 = q.l1Table := hstored
  rw [killed, reopened, hl1]

theorem killed_reopened (hstored : q.L1Stored) : q.reopened.killed = q.reopened := by
  rw [← killed_eq_reopened hstored]
  rfl

theorem ends_inOrder_take {I J : Qcow2File B → Prop} {ms : List (Io B Unit)} {last : Io B Unit}
    (hms : ∀ m ∈ ms, m.Keeps I fun _ => True) (hlast : ∀ q, I q → last.Ends J (fun _ => True) q) (hIJ : ∀ q, I q → J q)
    (n : Nat) (hq : I q) : (inOrder ((ms ++ [last]).take n)).Ends J (fun _ => True) q := by
  induction ms generalizing n q with
  | nil =>
    cases n with
    | zero => exact wp_pure ⟨hIJ q hq, trivial⟩
    | succ n =>
      change (inOrder (last :: [].take n)).Ends J _ q
      rw [List.take_nil]
      exact Wp.seq (hlast q hq) fun _ _ hq' => wp_pure hq'
  | cons m ms ih =>
    cases n with
    | zero => exact wp_pure ⟨hIJ q hq, trivial⟩
    | succ n =>
      refine Wp.seq (Wp.mono (hms m List.mem_cons_self q hq) (fun _ _ hq' => hq') fun _ _ hq' => hIJ _ hq') ?_
      exact fun _ q' hq' => ih (fun m' hm' => hms m' (List.mem_cons_of_mem m hm')) n hq'.1

theorem ends_flushUntil (host : Host) {header : Qcow2Header} {low high : Nat} (h : Within header low high q) (hfits : header.Fits)
    (n : Nat) : (flushUntil host n).Ends (Moved header low (high + flushRoom header.clusterSize high)) (fun _ => True) q := by
  have hsplit : flushSteps host q = ((dirtyIndices host q).map (flushL2Table host) ++ [writeL1Table host]) ++
      [writeRefcountTable host] := by rw [flushSteps, List.append_assoc, List.singleton_append]
  unfold Ends flushUntil
  apply wp_get_bind
  rw [hsplit]
  refine ends_inOrder_take (I := Within header low high) (fun m hm => ?_) (fun q' hq' => ends_writeRefcountTable hq' hfits)
    (fun q' hq' => ⟨header, rfl, hq'.mono (Nat.le_add_right _ _)⟩) n h
  rcases List.mem_append.mp hm with hl2 | hl1
  · obtain ⟨i, -, rfl⟩ := List.mem_map.mp hl2
    exact flushL2Table_within i
  · obtain rfl := List.mem_singleton.mp hl1
    exact writeL1Table_within

structure Survives [Backing B] (host : Host) (openBacking : PathBuf → Except Qcow2Error B) (path : PathBuf)
    (base : ByteStore) (size cs : Nat) (d : KillDisk) (q : Qcow2File B) : Prop where
  holds : Holds host base d.content q
  named : Named openBacking path q
  size_eq : q.header.size = size
  clusterSize_eq : q.header.clusterSize = cs
  lagging : Lagging q
  written : d.written = q.mapped
  safe : d.safe ⊆ q.killed.mapped
  within : Within q.header d.used d.used q

namespace Survives

variable [Backing B] {base content : ByteStore} {size cs : Nat} {d : KillDisk}

theorem reading (h : Survives host openBacking path base size cs d q) (hreading : Reading host base content q q')
    (hrecorded : Recorded q q') {low high : Nat} (hwithin : Within q.header low high q') :
    Survives host openBacking path base size cs ⟨content, q'.mapped, d.safe, q'.nextAllocOffset⟩ q' where
  holds := hreading.holds
  named := h.named.start h.holds.sound hreading.holds.sound hreading.toStart
  size_eq := by rw [hreading.header, h.size_eq]
  clusterSize_eq := by rw [hreading.header, h.clusterSize_eq]
  lagging := hrecorded.lagging
  written := rfl
  safe _ hg := ne_none_of_imp (fun _ => hrecorded.dataOffset_killed h.lagging) (h.safe hg)
  within := hwithin.here

theorem written_sub (h : Survives host openBacking path base size cs d q) (hrecorded : Recorded q q') :
    d.written ⊆ q'.mapped := by
  rw [h.written]
  exact fun g hg => ne_none_of_imp (hrecorded.dataOffset g) hg

theorem unchanged (h : Survives host openBacking path base size cs d q) (hreading : Reading host base content q q')
    (hrecorded : Recorded q q') {p : Nat} (hp : p / cs ∉ q'.mapped) : content p = d.content p := by
  have hnone' : q'.dataOffset (p / cs) = none := not_not.mp hp
  have hnone : q.dataOffset (p / cs) = none := by
    by_contra hsome
    exact ne_none_of_imp (hrecorded.dataOffset _) hsome hnone'
  rw [← hreading.holds.content, ← h.holds.content, byteAt_none (by rwa [hreading.header, h.clusterSize_eq]),
    byteAt_none (by rwa [h.clusterSize_eq])]

theorem flushing (h : Survives host openBacking path base size cs d q) (hflushing : Flushing host q q') {low high : Nat}
    (hmoved : Moved q.header low high q') :
    Survives host openBacking path base size cs { d with used := q'.nextAllocOffset } q' := by
  obtain ⟨off, n, hheader⟩ := hflushing.header
  refine ⟨h.holds.turns hflushing.toTurns hflushing.sound hflushing.tableOk,
    h.named.turns h.holds.sound hflushing.sound hflushing.toTurns, ?_, ?_, hflushing.recorded.lagging, ?_, fun g hg => ?_,
    hmoved.here⟩
  · rw [hheader]
    exact h.size_eq
  · rw [hflushing.toTurns.clusterSize, h.clusterSize_eq]
  · rw [h.written, mapped, mapped, hflushing.toTurns.dataOffset]
  · exact ne_none_of_imp (fun _ => hflushing.recorded.dataOffset_killed h.lagging) (h.safe hg)

theorem flushed (h : Survives host openBacking path base size cs d q) (hflushing : Flushing host q q')
    (hflushed : Flushed host q q') {low high : Nat} (hmoved : Moved q.header low high q') :
    Survives host openBacking path base size cs ⟨d.content, d.written, d.written, q'.nextAllocOffset⟩ q' := by
  have hsame := h.flushing hflushing hmoved
  refine ⟨hsame.holds, hsame.named, hsame.size_eq, hsame.clusterSize_eq, hsame.lagging, hsame.written, ?_, hsame.within⟩
  change d.written ⊆ _
  have hwritten : d.written = q'.mapped := hsame.written
  rw [hwritten, mapped, mapped, killed_eq_reopened hflushed.l1Stored,
    reopened_dataOffset hflushed.sound hflushed.clean]

theorem flush_moved (h : Survives host openBacking path base size cs d q) :
    Moved q.header d.used (d.used + flushRoom cs d.used) ((Qcow2File.flush host).exec q).2 := by
  rw [← h.clusterSize_eq]
  exact (ends_flush host h.within h.holds.sound.fits).state

theorem kill_run (hlimit : host.limit ≤ 2 ^ 54) (h : Survives host openBacking path base size cs d q) {op : KillOp}
    (hop : op.Kills) {used : Nat} (hused : d.used ≤ used + flushRoom cs used) :
    ∃ q' d', (q.kill openBacking path).2 = some q' ∧
      KillStep host.limit cs base { d with used } (op, ⟨(q.kill openBacking path).1, q'.nextAllocOffset⟩) d' ∧
      Survives host openBacking path base size cs d' q' := by
  have hcs := h.clusterSize_eq
  have hopen := openFile_killed h.holds.sound h.named
  have hnext := next_openFile h.holds.sound rfl hopen rfl
  unfold Qcow2File.kill
  rw [hopen]
  refine ⟨q.killed, ⟨q.killed.byteAt base, q.killed.mapped, q.killed.mapped, q.killed.nextAllocOffset⟩, rfl,
    .kill _ op hop _ _ _ h.safe ?_ (fun p hp => ?_) (fun p hp => ?_) ?_, h.lagging.holds_killed h.holds hlimit,
    ⟨h.named.room, h.named.opens⟩, h.size_eq, hcs, lagging_killed q, rfl, fun _ hg => hg, (within_openFile hopen).1⟩
  · rw [h.written]
    exact fun g => ne_none_of_imp fun _ => h.lagging.dataOffset_killed
  · rw [← hcs] at hp
    rw [h.lagging.byteAt_killed hp, h.holds.content]
  · rw [← hcs] at hp
    exact byteAt_none (not_not.mp hp)
  · exact (hnext.trans h.within.high).trans hused

theorem flush_flushing (hlimit : host.limit ≤ 2 ^ 54) (h : Survives host openBacking path base size cs d q) :
    Flushing host q ((Qcow2File.flush host).exec q).2 :=
  (keeps_flush_flushing hlimit q (.refl h.holds.sound h.holds.tableOk h.lagging)).state

/-- `op` is a step of the disk that the image survives. -/
def Follows (host : Host) (openBacking : PathBuf → Except Qcow2Error B) (path : PathBuf) (base : ByteStore)
    (size cs : Nat) (d : KillDisk) (q : Qcow2File B) (op : KillOp) : Prop :=
  ∃ q' d', (op.run host openBacking path q).2 = some q' ∧
    KillStep host.limit cs base d (op, ⟨(op.run host openBacking path q).1, q'.nextAllocOffset⟩) d' ∧
    Survives host openBacking path base size cs d' q'

theorem follows_readAt (h : Survives host openBacking path base size cs d q) {offset n : Nat} (hend : offset + n ≤ size) :
    Follows host openBacking path base size cs d q (.op (.readAt offset n)) := by
  have hlooked := (readAt_looked h.holds h.lagging offset n).state
  have hwithin := (ends_readAt host h.within offset n).state
  have hwp := wp_readAt h.holds (h.size_eq.symm ▸ hend)
  simp only [Follows, KillOp.run, DiskOp.run]
  cases hrun : (Qcow2File.readAt host offset n).exec q with
  | mk r q' =>
    rw [hrun] at hlooked hwithin
    have hused : q'.nextAllocOffset = d.used := Nat.le_antisymm hwithin.high hwithin.low
    cases r with
    | error e => exact (hwp.error hrun).elim
    | ok bytes =>
      obtain ⟨rfl, hreading⟩ := hwp.ok hrun
      have hsurvives := h.reading hreading hlooked.toRecorded hwithin
      rw [show q'.mapped = d.written by rw [h.written, mapped, mapped, hlooked.same], hused] at hsurvives
      refine ⟨q', d, rfl, ?_, hsurvives⟩
      rw [hused]
      exact .read d offset n

theorem follows_writeAt (hlimit : host.limit ≤ 2 ^ 54) (h : Survives host openBacking path base size cs d q)
    {offset : Nat} {data : Bytes} (hend : offset + data.length ≤ size) :
    Follows host openBacking path base size cs d q (.op (.writeAt offset data)) := by
  have hend : offset + data.length ≤ q.header.size := h.size_eq.symm ▸ hend
  have hwithin := (ends_writeAt host h.within offset data).state
  rw [h.clusterSize_eq] at hwithin
  have hwp := (wp_writeAt hlimit h.holds hend).and (wp_writeAt_recorded hlimit h.holds h.lagging hend)
  simp only [Follows, KillOp.run, DiskOp.run]
  cases hrun : (Qcow2File.writeAt host offset data).exec q with
  | mk r q' =>
    rw [hrun] at hwithin
    cases r with
    | error e =>
      obtain ⟨⟨rfl, hfull, k, hreading⟩, hrecorded⟩ := hwp.error hrun
      exact ⟨q', _, rfl, .cut d offset data k _ _ (h.written_sub hrecorded) (fun p => h.unchanged hreading hrecorded)
        hwithin.high hfull, h.reading hreading hrecorded hwithin⟩
    | ok _ =>
      obtain ⟨hreading, hrecorded, htouches⟩ := hwp.ok hrun
      refine ⟨q', _, rfl, .write d offset data _ _ (h.written_sub hrecorded) (fun p hlo hhi => ?_) hwithin.high,
        h.reading hreading hrecorded hwithin⟩
      obtain ⟨off, hoff⟩ := htouches p hlo hhi
      rw [h.clusterSize_eq] at hoff
      exact ne_none_of_imp (fun _ hoff' => hoff') (by rw [hoff]; exact Option.some_ne_none off)

theorem follows_flush (hlimit : host.limit ≤ 2 ^ 54) (h : Survives host openBacking path base size cs d q) :
    Follows host openBacking path base size cs d q (.op .flush) := by
  have hwp := wp_flush hlimit h.holds.sound h.holds.tableOk
  have hflushing := h.flush_flushing hlimit
  have hmoved := h.flush_moved
  simp only [Follows, KillOp.run, DiskOp.run]
  cases hrun : (Qcow2File.flush host).exec q with
  | mk r q' =>
    rw [hrun] at hflushing hmoved
    cases r with
    | error e =>
      obtain ⟨rfl, hfull, hflushed⟩ := hwp.error hrun
      exact ⟨q', _, rfl, .unflushed d _ hmoved.high hfull, h.flushed hflushing hflushed hmoved⟩
    | ok _ => exact ⟨q', _, rfl, .flush d _ hmoved.high, h.flushed hflushing (hwp.ok hrun) hmoved⟩

theorem follows_reopen (hlimit : host.limit ≤ 2 ^ 54) (h : Survives host openBacking path base size cs d q) :
    Follows host openBacking path base size cs d q (.op .reopen) := by
  have hflushed := flushed_exec hlimit h.holds.sound h.holds.tableOk
  have hrep := h.flushed (h.flush_flushing hlimit) hflushed h.flush_moved
  have hopen : openFile openBacking path (q.drop host) = .ok ((Qcow2File.flush host).exec q).2.reopened :=
    openFile_eq hflushed.sound hflushed.l1Stored hrep.named
  have hnext := next_openFile hflushed.sound rfl hopen rfl
  have hwritten : d.written = ((Qcow2File.flush host).exec q).2.mapped := hrep.written
  simp only [Follows, KillOp.run, DiskOp.run]
  rw [hopen]
  refine ⟨_, ⟨d.content, d.written, d.written, _⟩, rfl, .reopen d _ (hnext.trans h.flush_moved.high),
    hrep.holds.reopened hlimit hflushed.clean, ⟨hrep.named.room, hrep.named.opens⟩, hrep.size_eq, hrep.clusterSize_eq,
    ?_, ?_, ?_, (within_openFile hopen).1⟩
  · rw [← killed_eq_reopened hflushed.l1Stored]
    exact lagging_killed _
  · rw [hwritten, mapped, mapped, reopened_dataOffset hflushed.sound hflushed.clean]
  · rw [killed_reopened hflushed.l1Stored, hwritten, mapped, mapped,
      reopened_dataOffset hflushed.sound hflushed.clean]

theorem follows_killFlushing (hlimit : host.limit ≤ 2 ^ 54) (h : Survives host openBacking path base size cs d q) (n : Nat) :
    Follows host openBacking path base size cs d q (.killFlushing n) := by
  have hflushing := (keeps_flushUntil_flushing hlimit n q (.refl h.holds.sound h.holds.tableOk h.lagging)).state
  have hmoved := (ends_flushUntil host h.within h.holds.sound.fits n).state
  rw [h.clusterSize_eq] at hmoved
  have hkills : (KillOp.killFlushing n).Kills := trivial
  exact (h.flushing hflushing hmoved).kill_run hlimit hkills hmoved.high

theorem step (hlimit : host.limit ≤ 2 ^ 54) (h : Survives host openBacking path base size cs d q) {op : KillOp}
    (hop : op.InBounds size) : Follows host openBacking path base size cs d q op := by
  cases op with
  | kill => exact h.kill_run hlimit (show KillOp.kill.Kills from trivial) (Nat.le_add_right _ _)
  | killFlushing n => exact h.follows_killFlushing hlimit n
  | op op =>
    cases op with
    | readAt offset n => exact h.follows_readAt hop
    | writeAt offset data => exact h.follows_writeAt hlimit hop
    | flush => exact h.follows_flush hlimit
    | reopen => exact h.follows_reopen hlimit

theorem run (hlimit : host.limit ≤ 2 ^ 54) (h : Survives host openBacking path base size cs d q) {ops : List KillOp}
    (hops : ∀ op ∈ ops, op.InBounds size) :
    ∃ d', (killOutcomes host openBacking path q ops).length = ops.length ∧
      Steps (KillStep host.limit cs base) d (ops.zip (killOutcomes host openBacking path q ops)) d' := by
  induction ops generalizing d q with
  | nil => exact ⟨d, rfl, .nil d⟩
  | cons op ops ih =>
    obtain ⟨q', d', hnext, hstep, hsurvives⟩ := h.step hlimit (hops op List.mem_cons_self)
    obtain ⟨d'', hlen, hsteps⟩ := ih hsurvives fun op' hop' => hops op' (List.mem_cons_of_mem op hop')
    refine ⟨d'', ?_, ?_⟩
    · simp only [killOutcomes, hnext, Option.map_some, Option.getD_some, List.length_cons, hlen]
    · simp only [killOutcomes, hnext, Option.map_some, Option.getD_some, List.zip_cons_cons]
      exact .cons hstep hsteps

theorem blank (h : Survives host openBacking path base size cs d q) {p : Nat} (hp : p / cs ∉ d.written) :
    d.content p = base p := by
  rw [h.written] at hp
  rw [← h.holds.content, byteAt_none (by rw [h.clusterSize_eq]; exact not_not.mp hp)]

end Survives

end Killed

section Create

variable {B : Type} [Backing B] {host : Host} {openImage : PathBuf → HostFile → Except Qcow2Error (Qcow2File B)}
  {path : PathBuf} {name : Option String} {v b : Nat} {q : Qcow2File (BackingFile B)}

theorem survives_create (hlimit : host.limit ≤ 2 ^ 54) (hfit : SizesFit v b) (hblocks : RoomForBlocks v b)
    (hcreate : create v b host (openBackingFile host openImage) path name = .ok q)
    (hraw : ∀ image, q.backing ≠ some (.qcow2 image)) :
    Survives host (openBackingFile host openImage) path (rawBytes q.backing) v (2 ^ b)
      ⟨rawBytes q.backing, ∅, ∅, q.nextAllocOffset⟩ q := by
  obtain ⟨hv, hcreated⟩ := created_of_sizesFit hfit hcreate
  have hzero := create_l1Zero hfit hcreate hblocks
  obtain ⟨-, -, hnamed⟩ := create_created hv hlimit hcreate
  obtain ⟨-, -, -, -, hopen⟩ := create_eq_ok hcreate
  refine ⟨holds_create hv hlimit hcreate hzero (rests_rawBytes hnamed hraw) (create_covers hfit hcreate), hnamed,
    hcreated.size_eq, hcreated.clusterSize_eq, ⟨?_, fun i off hoff => ?_⟩, ?_, Set.empty_subset _,
    (within_openFile hopen).1⟩
  · have hstored : q.storedL1 = q.l1Table := hcreated.l1Table.symm
    rw [hstored]
    exact .refl _
  · rw [l2Offset_eq_none hzero] at hoff
    cases hoff
  · refine (Set.eq_empty_of_forall_notMem fun g hg => ?_).symm
    exact hg (dataOffset_eq_none hzero g)

end Create

theorem create_survives_kill {B : Type} [Backing B] (host : Host) (hlimit : host.limit ≤ 2 ^ 54)
    (openImage : PathBuf → HostFile → Except Qcow2Error (Qcow2File B)) (path : PathBuf) (name : Option String)
    (v b : Nat) (hfit : SizesFit v b) (hblocks : RoomForBlocks v b) (q : Qcow2File (BackingFile B))
    (hcreate : create v b host (openBackingFile host openImage) path name = .ok q)
    (hraw : ∀ image, q.backing ≠ some (.qcow2 image)) (ops : List KillOp) (hops : ∀ op ∈ ops, op.InBounds v) :
    ∃ d, (killOutcomes host (openBackingFile host openImage) path q ops).length = ops.length ∧
      Steps (KillStep host.limit (2 ^ b) (rawBytes q.backing)) ⟨rawBytes q.backing, ∅, ∅, q.nextAllocOffset⟩
        (ops.zip (killOutcomes host (openBackingFile host openImage) path q ops)) d :=
  (survives_create hlimit hfit hblocks hcreate hraw).run hlimit hops

theorem create_survives_kill_new :
    (killOutcomes baseHost (openBackingFile baseHost fun _ _ => .error .noSuchFile) basePath newImage
      [.op (.writeAt 510 [1, 2, 3]), .op .flush, .op (.writeAt 1024 [4]), .killFlushing 1, .op (.readAt 508 6)]).map
        (·.result) = [.ok [], .ok [], .ok [], .ok [], .ok [0, 0, 1, 2, 3, 0]] := by
  have hops : ∀ op ∈ [KillOp.op (.writeAt 510 [1, 2, 3]), .op .flush, .op (.writeAt 1024 [4]), .killFlushing 1,
      .op (.readAt 508 6)], op.InBounds 4096 := by
    simp [KillOp.InBounds, DiskOp.InBounds]
  obtain ⟨d, hlen, hsteps⟩ := create_survives_kill baseHost (by decide) (fun _ _ => .error .noSuchFile) basePath none 4096 9
    ⟨by decide, by decide⟩ (by change _ ≤ _; decide) newImage newImage_create (fun _ h => by cases h) _ hops
  obtain ⟨a₁, rest, hfirst⟩ := List.exists_cons_of_length_eq_add_one hlen
  rw [hfirst, List.length_cons] at hlen
  obtain ⟨a₂, a₃, a₄, a₅, rfl⟩ := List.length_eq_four.mp (Nat.succ.inj hlen)
  rw [hfirst] at hsteps ⊢
  obtain ⟨d₁, h₁, hsteps⟩ := hsteps.of_cons
  obtain ⟨d₂, h₂, hsteps⟩ := hsteps.of_cons
  obtain ⟨d₃, h₃, hsteps⟩ := hsteps.of_cons
  obtain ⟨d₄, h₄, hsteps⟩ := hsteps.of_cons
  obtain ⟨d₅, h₅, -⟩ := hsteps.of_cons
  have hlimit : baseHost.limit = 2 ^ 40 := rfl
  have hroom : flushRoom (2 ^ 9) 6144 = 1024 ∧ writeRoom (2 ^ 9) 1024 1 = 2048 := by decide
  obtain ⟨hr₁, hc₁, -, hu₁, hwritten⟩ := h₁.write_ok (by decide)
  have hused₁ : d₁.used ≤ 6144 := hu₁
  have hflush := flushRoom_mono (2 ^ 9) hused₁
  obtain ⟨hr₂, hc₂, hs₂, hu₂⟩ := h₂.flush_ok (by omega)
  obtain ⟨hr₃, hc₃, hs₃, -, -⟩ := h₃.write_ok (by rw [List.length_singleton]; omega)
  obtain ⟨hr₄, hc₄⟩ := h₄.kill_ok trivial
  have hsafe : ∀ p, 508 ≤ p → p < 514 → p / 2 ^ 9 ∈ d₃.safe := by
    intro p hlo hhi
    have hfirst : 510 / 2 ^ 9 ∈ d₁.written := hwritten 510 (by decide) (by decide)
    have hsecond : 512 / 2 ^ 9 ∈ d₁.written := hwritten 512 (by decide) (by decide)
    rw [hs₃, hs₂]
    rcases Nat.lt_or_ge p 512 with hp | hp
    · rwa [show p / 2 ^ 9 = 510 / 2 ^ 9 by omega]
    · rwa [show p / 2 ^ 9 = 512 / 2 ^ 9 by omega]
  have hread : readBytes d₄.content 508 6 = readBytes (writeBytes (writeBytes (fun _ => 0) 510 [1, 2, 3]) 1024 [4]) 508 6 :=
    readBytes_congr fun p hlo hhi => by rw [hc₄ p (hsafe p hlo hhi), hc₃, hc₂, hc₁]; rfl
  have hr₅ := h₅.read_ok
  rw [hread] at hr₅
  simp only [List.map_cons, List.map_nil, hr₁, hr₂, hr₃, hr₄, hr₅]
  rfl

def KillNext {B : Type} [Backing B] (host : Host) (openBacking : PathBuf → Except Qcow2Error B) (path : PathBuf)
    (q : Qcow2File B) (op : KillOp) (q' : Qcow2File B) : Prop := (op.run host openBacking path q).2 = some q'

section Durable

variable {B : Type} [Backing B] {host : Host} {openBacking : PathBuf → Except Qcow2Error B} {path : PathBuf}
  {base : ByteStore} {size cs p : Nat} {x : UInt8} {d : KillDisk} {q q' : Qcow2File B}

theorem Survives.next (hlimit : host.limit ≤ 2 ^ 54) (h : Survives host openBacking path base size cs d q) {op : KillOp}
    (hop : op.InBounds size) (hnext : KillNext host openBacking path q op q') :
    ∃ d' r, KillStep host.limit cs base d (op, r) d' ∧ Survives host openBacking path base size cs d' q' := by
  obtain ⟨q'', d', hq'', hstep, hsurvives⟩ := h.step hlimit hop
  cases Option.some.inj (hq''.symm.trans hnext)
  exact ⟨d', _, hstep, hsurvives⟩

theorem Survives.nexts (hlimit : host.limit ≤ 2 ^ 54) (h : Survives host openBacking path base size cs d q)
    {ops : List KillOp} (hops : ∀ op ∈ ops, op.InBounds size) (hrun : Steps (KillNext host openBacking path) q ops q') :
    ∃ d', Survives host openBacking path base size cs d' q' := by
  induction hrun generalizing d with
  | nil q => exact ⟨d, h⟩
  | @cons q q' q'' op ops hnext _ ih =>
    obtain ⟨d', -, -, hsurvives⟩ := h.next hlimit (hops op List.mem_cons_self) hnext
    exact ih hsurvives fun op' hop' => hops op' (List.mem_cons_of_mem op hop')

theorem Survives.durable (hlimit : host.limit ≤ 2 ^ 54) (h : Survives host openBacking path base size cs d q)
    (hd : d.Durable base cs p x) {ops : List KillOp} (hops : ∀ op ∈ ops, op.InBounds size ∧ op.Spares p)
    (hrun : Steps (KillNext host openBacking path) q ops q') :
    ∃ d', Survives host openBacking path base size cs d' q' ∧ d'.Durable base cs p x := by
  induction hrun generalizing d with
  | nil q => exact ⟨d, h, hd⟩
  | @cons q q' q'' op ops hnext _ ih =>
    obtain ⟨hop, hspares⟩ := hops op List.mem_cons_self
    obtain ⟨d', r, hstep, hsurvives⟩ := h.next hlimit hop hnext
    exact ih hsurvives (hd.step hstep hspares) fun op' hop' => hops op' (List.mem_cons_of_mem op hop')

theorem Survives.read (h : Survives host openBacking path base size cs d q) (hp : p < size) :
    ((Qcow2File.readAt host p 1).exec q).1 = .ok [d.content p] := by
  have hend : p + 1 ≤ q.header.size := by rw [h.size_eq]; exact hp
  have hwp := wp_readAt h.holds hend
  cases hrun : (Qcow2File.readAt host p 1).exec q with
  | mk r q' =>
    cases r with
    | error e => exact (hwp.error hrun).elim
    | ok bytes =>
      obtain ⟨rfl, -⟩ := hwp.ok hrun
      rfl

theorem Survives.flush_durable (hlimit : host.limit ≤ 2 ^ 54) (h : Survives host openBacking path base size cs d q)
    (hflush : KillNext host openBacking path q (.op .flush) q') (p : Nat) :
    ∃ d', Survives host openBacking path base size cs d' q' ∧ d'.Durable base cs p (d.content p) := by
  have hflushing := (keeps_flush_flushing hlimit q (.refl h.holds.sound h.holds.tableOk h.lagging)).state
  have hflushed := h.flushed hflushing (flushed_exec hlimit h.holds.sound h.holds.tableOk) h.flush_moved
  cases Option.some.inj hflush
  refine ⟨_, hflushed, rfl, le_refl _, ?_⟩
  by_cases hp : p / cs ∈ d.written
  · exact Or.inl hp
  · exact Or.inr (h.blank hp).symm

end Durable

theorem create_flushed_durable {B : Type} [Backing B] (host : Host) (hlimit : host.limit ≤ 2 ^ 54)
    (openImage : PathBuf → HostFile → Except Qcow2Error (Qcow2File B)) (path : PathBuf) (name : Option String)
    (v b : Nat) (hfit : SizesFit v b) (hblocks : RoomForBlocks v b) (q q₁ q₂ q₃ : Qcow2File (BackingFile B))
    (hcreate : create v b host (openBackingFile host openImage) path name = .ok q)
    (hraw : ∀ image, q.backing ≠ some (.qcow2 image)) (p : Nat) (hp : p < v) (before after : List KillOp)
    (hbefore : ∀ op ∈ before, op.InBounds v) (hafter : ∀ op ∈ after, op.InBounds v ∧ op.Spares p)
    (hrun₁ : Steps (KillNext host (openBackingFile host openImage) path) q before q₁)
    (hflush : KillNext host (openBackingFile host openImage) path q₁ (.op .flush) q₂)
    (hrun₂ : Steps (KillNext host (openBackingFile host openImage) path) q₂ after q₃) :
    ((readAt host p 1).exec q₃).1 = ((readAt host p 1).exec q₁).1 := by
  obtain ⟨d₁, h₁⟩ := (survives_create hlimit hfit hblocks hcreate hraw).nexts hlimit hbefore hrun₁
  obtain ⟨d₂, h₂, hdurable₂⟩ := h₁.flush_durable hlimit hflush p
  obtain ⟨d₃, h₃, hx, -⟩ := h₂.durable hlimit hdurable₂ hafter hrun₂
  rw [h₁.read hp, h₃.read hp, hx]

theorem create_flushed_durable_new : ∃ q₁ q₃ : Qcow2File (BackingFile Empty),
    Steps (KillNext baseHost (openBackingFile baseHost fun _ _ => .error .noSuchFile) basePath) newImage
      [.op (.writeAt 510 [1]), .op .flush, .op (.writeAt 511 [2]), .kill] q₃ ∧
      ((readAt baseHost 510 1).exec q₃).1 = ((readAt baseHost 510 1).exec q₁).1 := by
  have hfit : SizesFit 4096 9 := ⟨by decide, by decide⟩
  have hblocks : RoomForBlocks 4096 9 := by
    change _ ≤ _
    decide
  have hraw : ∀ image, newImage.backing ≠ some (.qcow2 image) := fun _ h => by cases h
  have hbefore : ∀ op ∈ [KillOp.op (.writeAt 510 [1])], op.InBounds 4096 := by simp [KillOp.InBounds, DiskOp.InBounds]
  have hafter : ∀ op ∈ [KillOp.op (.writeAt 511 [2]), .kill], op.InBounds 4096 ∧ op.Spares 510 := by
    simp [KillOp.InBounds, DiskOp.InBounds, KillOp.Spares]
  have hsurvives : Survives baseHost (openBackingFile baseHost fun _ _ => .error .noSuchFile) basePath (fun _ => 0) 4096
      (2 ^ 9) ⟨fun _ => 0, ∅, ∅, newImage.nextAllocOffset⟩ newImage :=
    survives_create (by decide) hfit hblocks newImage_create hraw
  obtain ⟨q₁, d₁, hnext₁, -, h₁⟩ := hsurvives.step (by decide) (hbefore _ List.mem_cons_self)
  obtain ⟨q₂, d₂, hnext₂, -, h₂⟩ := h₁.step (by decide) (show (KillOp.op .flush).InBounds 4096 from trivial)
  obtain ⟨q', d', hnext', -, h'⟩ := h₂.step (by decide) (hafter _ List.mem_cons_self).1
  obtain ⟨q₃, d₃, hnext₃, -, -⟩ := h'.step (by decide) (show KillOp.kill.InBounds 4096 from trivial)
  exact ⟨q₁, q₃, .cons hnext₁ (.cons hnext₂ (.cons hnext' (.cons hnext₃ (.nil _)))),
    create_flushed_durable baseHost (by decide) (fun _ _ => .error .noSuchFile) basePath none 4096 9 hfit hblocks newImage
      q₁ q₂ q₃ newImage_create hraw 510 (by decide) _ _ hbefore hafter (.cons hnext₁ (.nil _)) hnext₂
      (.cons hnext' (.cons hnext₃ (.nil _)))⟩

end Qcow2File

end CloneVmm.Storage
