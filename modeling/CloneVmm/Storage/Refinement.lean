import CloneVmm.Lib.Run
import CloneVmm.Storage.Backing
import CloneVmm.Storage.Create
import CloneVmm.Storage.Growth

namespace CloneVmm.Storage

open CloneVmm.Lib CloneVmm.Lib.Prog

inductive DiskOp
  | readAt (offset n : Nat)
  | writeAt (offset : Nat) (data : Bytes)
  | flush
  | reopen

def DiskOp.InBounds (size : Nat) : DiskOp → Prop
  | readAt offset n => offset + n ≤ size
  | writeAt offset data => offset + data.length ≤ size
  | flush | reopen => True

structure FlatDisk where
  writes : List (Nat × Bytes)
  used : Nat

def lastWritten : List (Nat × Bytes) → Nat → Option UInt8
  | [], _ => none
  | (offset, data) :: older, pos =>
    if offset ≤ pos ∧ pos < offset + data.length then data[pos - offset]? else lastWritten older pos

def flatByte (base : ByteStore) (writes : List (Nat × Bytes)) (pos : Nat) : UInt8 :=
  (lastWritten writes pos).getD (base pos)

structure Answer where
  result : Except Qcow2Error Bytes
  used : Nat

/-- What a disk may answer in a file that the host lets grow to `limit` bytes. Only where an operation
needs more than that is it refused: then a first part of the data is written, and an image that is not
flushed reads the same. -/
inductive FlatStep (limit clusterSize : Nat) (base : ByteStore) : FlatDisk → DiskOp × Answer → FlatDisk → Prop
  | read (d : FlatDisk) (offset n : Nat) :
      FlatStep limit clusterSize base d
        (.readAt offset n, ⟨.ok ((List.range n).map fun i => flatByte base d.writes (offset + i)), d.used⟩) d
  | write (d : FlatDisk) (offset : Nat) (data : Bytes) (used : Nat)
      (hused : used ≤ d.used + writeRoom clusterSize offset data.length) :
      FlatStep limit clusterSize base d (.writeAt offset data, ⟨.ok [], used⟩) ⟨(offset, data) :: d.writes, used⟩
  | cut (d : FlatDisk) (offset : Nat) (data : Bytes) (k used : Nat)
      (hused : used ≤ d.used + writeRoom clusterSize offset data.length) (hfull : limit < used) :
      FlatStep limit clusterSize base d (.writeAt offset data, ⟨.error .refused, used⟩)
        ⟨(offset, data.take k) :: d.writes, used⟩
  | flush (d : FlatDisk) (used : Nat) (hused : used ≤ d.used + flushRoom clusterSize d.used) :
      FlatStep limit clusterSize base d (.flush, ⟨.ok [], used⟩) ⟨d.writes, used⟩
  | unflushed (d : FlatDisk) (used : Nat) (hused : used ≤ d.used + flushRoom clusterSize d.used) (hfull : limit < used) :
      FlatStep limit clusterSize base d (.flush, ⟨.error .refused, used⟩) ⟨d.writes, used⟩
  | reopen (d : FlatDisk) (used : Nat) (hused : used ≤ d.used + flushRoom clusterSize d.used) :
      FlatStep limit clusterSize base d (.reopen, ⟨.ok [], used⟩) ⟨d.writes, used⟩

theorem flatByte_cons (base : ByteStore) (writes : List (Nat × Bytes)) (offset : Nat) (data : Bytes) :
    flatByte base ((offset, data) :: writes) = writeBytes (flatByte base writes) offset data := by
  funext pos
  simp only [flatByte, lastWritten]
  split
  · rename_i hin
    have hlt : pos - offset < data.length := by omega
    rw [writeBytes, if_pos hin.1, List.getElem?_eq_getElem hlt, Option.getD_some, Option.getD_some]
  · rw [writeBytes_outside (by omega)]
    rfl

def DiskOp.room (clusterSize used : Nat) : DiskOp → Nat
  | readAt _ _ => 0
  | writeAt offset data => writeRoom clusterSize offset data.length
  | flush | reopen => flushRoom clusterSize used

theorem FlatStep.succeeds {limit clusterSize : Nat} {base : ByteStore} {d d' : FlatDisk} {op : DiskOp} {r : Answer}
    (h : FlatStep limit clusterSize base d (op, r) d') (hroom : d.used + op.room clusterSize d.used ≤ limit) :
    (∃ bytes, r.result = .ok bytes) ∧ d'.used ≤ d.used + op.room clusterSize d.used := by
  cases h with
  | read offset n => exact ⟨⟨_, rfl⟩, Nat.le_refl _⟩
  | write offset data used hused | flush used hused | reopen used hused => exact ⟨⟨_, rfl⟩, hused⟩
  | cut offset data k used hused hfull | unflushed used hused hfull =>
    exact absurd (hused.trans hroom) (Nat.not_le.mpr hfull)

section Run

variable {B : Type} [Backing B] (host : Host) (openBacking : PathBuf → Except Qcow2Error B) (path : PathBuf)

def DiskOp.run (q : Qcow2File B) : DiskOp → Except Qcow2Error Bytes × Option (Qcow2File B)
  | readAt offset n =>
    (((Qcow2File.readAt host offset n).exec q).1, some ((Qcow2File.readAt host offset n).exec q).2)
  | writeAt offset data =>
    (((Qcow2File.writeAt host offset data).exec q).1.map fun _ => [], some ((Qcow2File.writeAt host offset data).exec q).2)
  | flush => (((Qcow2File.flush host).exec q).1.map fun _ => [], some ((Qcow2File.flush host).exec q).2)
  | reopen =>
    ((Qcow2File.openFile openBacking path (q.drop host)).map fun _ => [],
      (Qcow2File.openFile openBacking path (q.drop host)).toOption)

def outcomes : Qcow2File B → List DiskOp → List Answer
  | _, [] => []
  | q, op :: ops =>
    ⟨(op.run host openBacking path q).1, ((op.run host openBacking path q).2.map (·.nextAllocOffset)).getD 0⟩ ::
      (((op.run host openBacking path q).2.map fun q' => outcomes q' ops).getD [])

end Run

namespace Qcow2File

section Growth

variable {B : Type} {openBacking : PathBuf → Except Qcow2Error B} {path : PathBuf} {file : HostFile} {q : Qcow2File B}

theorem Within.here {header : Qcow2Header} {low high : Nat} (h : Within header low high q) :
    Within q.header q.nextAllocOffset q.nextAllocOffset q := by
  obtain rfl := h.same
  exact ⟨rfl, Nat.le_refl _, Nat.le_refl _, h.table⟩

theorem Moved.here {header : Qcow2Header} {low high : Nat} (h : Moved header low high q) :
    Within q.header q.nextAllocOffset q.nextAllocOffset q := by
  obtain ⟨header', -, hwithin⟩ := h
  exact hwithin.here

theorem Moved.high {header : Qcow2Header} {low high : Nat} (h : Moved header low high q) : q.nextAllocOffset ≤ high := by
  obtain ⟨header', -, hwithin⟩ := h
  exact hwithin.high

theorem within_openFile (h : openFile openBacking path file = .ok q) :
    Within q.header q.nextAllocOffset q.nextAllocOffset q ∧ q.nextAllocOffset = alignUp file.len q.header.clusterSize := by
  unfold openFile at h
  obtain ⟨header, hheader, h⟩ := exceptBind_eq_ok.mp h
  obtain ⟨l1Table, hl1, h⟩ := exceptBind_eq_ok.mp h
  obtain ⟨refcountTable, htable, h⟩ := exceptBind_eq_ok.mp h
  obtain ⟨backing, hbacking, h⟩ := exceptBind_eq_ok.mp h
  cases h
  refine ⟨⟨rfl, Nat.le_refl _, Nat.le_refl _, Or.inl ?_⟩, rfl⟩
  change refcountTable.length * 8 ≤ _
  rw [readTable_length htable]
  exact Nat.div_mul_le_self _ _

theorem alignUp_le {len align n : Nat} (hle : len ≤ n) (hdvd : align ∣ n) (halign : 0 < align) : alignUp len align ≤ n := by
  obtain ⟨k, rfl⟩ := hdvd
  have hquot : (len + align - 1) % 2 ^ 64 / align ≤ k := by
    rw [← Nat.lt_succ_iff, Nat.div_lt_iff_lt_mul halign, Nat.succ_mul, Nat.mul_comm]
    have hmod := Nat.mod_le (len + align - 1) (2 ^ 64)
    omega
  rw [alignUp, Nat.mul_comm align k]
  exact Nat.mul_le_mul_right _ hquot

theorem next_openFile {host : Host} {q' : Qcow2File B} (hsound : Sound host [] q) (hlen : file.len = q.file.len)
    (h : openFile openBacking path file = .ok q') (hcluster : q'.header.clusterSize = q.header.clusterSize) :
    q'.nextAllocOffset ≤ q.nextAllocOffset := by
  rw [(within_openFile h).2, hlen, hcluster]
  exact alignUp_le hsound.lenLe hsound.nextAligned (clusterSize_pos _)

end Growth

section Step

variable {B : Type} [Backing B] {host : Host} {openBacking : PathBuf → Except Qcow2Error B} {path : PathBuf}
  {base : ByteStore} {d : FlatDisk} {size cs : Nat} {q : Qcow2File B}

structure Represents (host : Host) (openBacking : PathBuf → Except Qcow2Error B) (path : PathBuf) (base : ByteStore)
    (size cs : Nat) (d : FlatDisk) (q : Qcow2File B) : Prop where
  holds : Holds host base (flatByte base d.writes) q
  named : Named openBacking path q
  size_eq : q.header.size = size
  clusterSize_eq : q.header.clusterSize = cs
  within : Within q.header d.used d.used q

namespace Represents

variable {writes' : List (Nat × Bytes)} {q' : Qcow2File B}

theorem reading (h : Represents host openBacking path base size cs d q)
    (hreading : Reading host base (flatByte base writes') q q') {low high : Nat} (hwithin : Within q.header low high q') :
    Represents host openBacking path base size cs ⟨writes', q'.nextAllocOffset⟩ q' :=
  ⟨hreading.holds, h.named.start h.holds.sound hreading.holds.sound hreading.toStart,
    by rw [hreading.header, h.size_eq], by rw [hreading.header, h.clusterSize_eq], hwithin.here⟩

theorem flushed (h : Represents host openBacking path base size cs d q) (hflushed : Flushed host q q') {low high : Nat}
    (hmoved : Moved q.header low high q') :
    Represents host openBacking path base size cs ⟨d.writes, q'.nextAllocOffset⟩ q' := by
  obtain ⟨off, n, hheader⟩ := hflushed.header
  refine ⟨h.holds.turns hflushed.toTurns hflushed.sound hflushed.tableOk,
    h.named.turns h.holds.sound hflushed.sound hflushed.toTurns, ?_, ?_, hmoved.here⟩
  · rw [hheader]
    exact h.size_eq
  · rw [hflushed.toTurns.clusterSize, h.clusterSize_eq]

theorem flush_moved (h : Represents host openBacking path base size cs d q) :
    Moved q.header d.used (d.used + flushRoom cs d.used) ((Qcow2File.flush host).exec q).2 := by
  rw [← h.clusterSize_eq]
  exact (ends_flush host h.within h.holds.sound.fits).state

theorem step (hlimit : host.limit ≤ 2 ^ 54) (h : Represents host openBacking path base size cs d q) {op : DiskOp}
    (hop : op.InBounds size) :
    ∃ q' d', (op.run host openBacking path q).2 = some q' ∧
      FlatStep host.limit cs base d (op, ⟨(op.run host openBacking path q).1, q'.nextAllocOffset⟩) d' ∧
      Represents host openBacking path base size cs d' q' := by
  cases op with
  | readAt offset n =>
    have hend : offset + n ≤ q.header.size := by rw [h.size_eq]; exact hop
    have hwp := wp_readAt h.holds hend
    have hwithin := (ends_readAt host h.within offset n).state
    simp only [DiskOp.run]
    cases hrun : (Qcow2File.readAt host offset n).exec q with
    | mk r q' =>
      rw [hrun] at hwithin
      have hused : q'.nextAllocOffset = d.used := Nat.le_antisymm hwithin.high hwithin.low
      cases r with
      | error e => exact (hwp.error hrun).elim
      | ok bytes =>
        obtain ⟨rfl, hreading⟩ := hwp.ok hrun
        have hrep := h.reading hreading hwithin
        rw [hused] at hrep
        refine ⟨q', d, rfl, ?_, hrep⟩
        rw [hused]
        exact .read d offset n
  | writeAt offset data =>
    have hend : offset + data.length ≤ q.header.size := by rw [h.size_eq]; exact hop
    have hwp := wp_writeAt hlimit h.holds hend
    have hwithin := (ends_writeAt host h.within offset data).state
    rw [h.clusterSize_eq] at hwithin
    simp only [DiskOp.run]
    cases hrun : (Qcow2File.writeAt host offset data).exec q with
    | mk r q' =>
      rw [hrun] at hwithin
      cases r with
      | error e =>
        obtain ⟨rfl, hfull, k, hreading⟩ := hwp.error hrun
        rw [← flatByte_cons] at hreading
        exact ⟨q', _, rfl, .cut d offset data k _ hwithin.high hfull, h.reading hreading hwithin⟩
      | ok _ =>
        have hreading := hwp.ok hrun
        rw [← flatByte_cons] at hreading
        exact ⟨q', _, rfl, .write d offset data _ hwithin.high, h.reading hreading hwithin⟩
  | flush =>
    have hwp := wp_flush hlimit h.holds.sound h.holds.tableOk
    have hmoved := h.flush_moved
    simp only [DiskOp.run]
    cases hrun : (Qcow2File.flush host).exec q with
    | mk r q' =>
      rw [hrun] at hmoved
      cases r with
      | error e =>
        obtain ⟨rfl, hfull, hflushed⟩ := hwp.error hrun
        exact ⟨q', _, rfl, .unflushed d _ hmoved.high hfull, h.flushed hflushed hmoved⟩
      | ok _ => exact ⟨q', _, rfl, .flush d _ hmoved.high, h.flushed (hwp.ok hrun) hmoved⟩
  | reopen =>
    have hflushed := flushed_exec hlimit h.holds.sound h.holds.tableOk
    have hrep := h.flushed hflushed h.flush_moved
    have hopen : openFile openBacking path (q.drop host) = .ok ((Qcow2File.flush host).exec q).2.reopened :=
      openFile_eq hflushed.sound hflushed.l1Stored hrep.named
    have hnext := next_openFile hflushed.sound rfl hopen rfl
    simp only [DiskOp.run]
    rw [hopen]
    exact ⟨_, _, rfl, .reopen d _ (hnext.trans h.flush_moved.high), hrep.holds.reopened hlimit hflushed.clean,
      ⟨hrep.named.room, hrep.named.opens⟩, hrep.size_eq, hrep.clusterSize_eq, (within_openFile hopen).1⟩

theorem run (hlimit : host.limit ≤ 2 ^ 54) (h : Represents host openBacking path base size cs d q) {ops : List DiskOp}
    (hops : ∀ op ∈ ops, op.InBounds size) :
    ∃ d', (outcomes host openBacking path q ops).length = ops.length ∧
      Steps (FlatStep host.limit cs base) d (ops.zip (outcomes host openBacking path q ops)) d' := by
  induction ops generalizing d q with
  | nil => exact ⟨d, rfl, .nil d⟩
  | cons op ops ih =>
    obtain ⟨q', d', hnext, hstep, hrep⟩ := h.step hlimit (hops op List.mem_cons_self)
    obtain ⟨d'', hlen, hsteps⟩ := ih hrep fun op' hop' => hops op' (List.mem_cons_of_mem op hop')
    refine ⟨d'', ?_, ?_⟩
    · simp only [outcomes, hnext, Option.map_some, Option.getD_some, List.length_cons, hlen]
    · simp only [outcomes, hnext, Option.map_some, Option.getD_some, List.zip_cons_cons]
      exact .cons hstep hsteps

end Represents

end Step

section Base

variable {B : Type} [Backing B] {host : Host}

def rawBytes : Option (BackingFile B) → ByteStore
  | some (.raw file _) => file.data
  | _ => fun _ => 0

theorem readAt_raw (file : HostFile) (offset n : Nat) :
    BackingFile.readAt host (.raw file file.len : BackingFile B) offset n =
      (.ok (readBytes file.data offset n), .raw file file.len) := by
  have hzero : ∀ off k, file.len ≤ off → readBytes file.data off k = List.replicate k 0 := by
    intro off k hle
    have hread : readBytes file.data off k = readBytes (fun _ => 0) off k :=
      readBytes_congr fun i hlo _ => file.zero_beyond i (by omega)
    rw [hread, readBytes, List.map_const', List.length_range]
  simp only [BackingFile.readAt]
  split
  · rw [hzero offset n ‹_›]
  · rw [file.readExact_eq (by omega)]
    dsimp only
    by_cases hle : n ≤ file.len - offset
    · rw [Nat.min_eq_left hle, Nat.sub_self, List.replicate_zero, List.append_nil]
    · rw [Nat.min_eq_right (by omega), ← hzero (offset + (file.len - offset)) _ (by omega), ← readBytes_append,
        Nat.add_sub_cancel' (by omega)]

omit [Backing B] in
theorem openBackingFile_raw {openImage : PathBuf → HostFile → Except Qcow2Error (Qcow2File B)} {path : PathBuf}
    {file : HostFile} {size : Nat} (h : openBackingFile host openImage path = .ok (.raw file size)) : size = file.len := by
  unfold openBackingFile at h
  cases hfile : host.files path with
  | none =>
    rw [hfile] at h
    cases h
  | some found =>
    rw [hfile] at h
    dsimp only at h
    split at h
    · cases himage : openImage path found with
      | error e =>
        rw [himage] at h
        cases h
      | ok image =>
        rw [himage] at h
        cases h
    · cases h
      rfl

theorem rests_rawBytes {openImage : PathBuf → HostFile → Except Qcow2Error (Qcow2File B)} {path : PathBuf}
    {q : Qcow2File (BackingFile B)} (hnamed : Named (openBackingFile host openImage) path q)
    (hraw : ∀ image, q.backing ≠ some (.qcow2 image)) : Rests host (rawBytes q.backing) q.backing := by
  cases hbacking : q.backing with
  | none => rfl
  | some b =>
    cases b with
    | qcow2 image => exact absurd hbacking (hraw image)
    | raw file size =>
      obtain ⟨path', hopen⟩ := openHeaderBacking_some (hbacking ▸ hnamed.opens)
      obtain rfl := openBackingFile_raw hopen
      exact fun offset n => readAt_raw file offset n

end Base

/-- A new image answers as a flat disk over its backing file does, whatever is read, written, flushed
and opened again, in which order ever. -/
theorem create_flat_disk {B : Type} [Backing B] (host : Host) (hlimit : host.limit ≤ 2 ^ 54)
    (openImage : PathBuf → HostFile → Except Qcow2Error (Qcow2File B)) (path : PathBuf) (name : Option String)
    (v b : Nat) (hv : v < 2 ^ 64) (q : Qcow2File (BackingFile B))
    (hcreate : create v b host (openBackingFile host openImage) path name = .ok q)
    (hzero : ∀ e ∈ q.l1Table, e = 0)
    (hcovers : v ≤ q.header.l1Size * q.header.l2EntriesPerTable * q.header.clusterSize)
    (hraw : ∀ image, q.backing ≠ some (.qcow2 image)) (ops : List DiskOp) (hops : ∀ op ∈ ops, op.InBounds v) :
    ∃ d, (outcomes host (openBackingFile host openImage) path q ops).length = ops.length ∧
      Steps (FlatStep host.limit (2 ^ b) (rawBytes q.backing)) ⟨[], alignUp (createFile v b name).len (2 ^ b)⟩
        (ops.zip (outcomes host (openBackingFile host openImage) path q ops)) d := by
  obtain ⟨hcreated, -, hnamed⟩ := create_created hv hlimit hcreate
  have hsize := hcreated.size_eq
  have hholds : Holds host (rawBytes q.backing) (rawBytes q.backing) q :=
    holds_create hv hlimit hcreate hzero (rests_rawBytes hnamed hraw) (hsize.symm ▸ hcovers)
  obtain ⟨-, -, -, -, hopen⟩ := create_eq_ok hcreate
  obtain ⟨hwithin, hnext⟩ := within_openFile hopen
  rw [hcreated.clusterSize_eq] at hnext
  have hrep : Represents host (openBackingFile host openImage) path (rawBytes q.backing) v (2 ^ b)
      ⟨[], q.nextAllocOffset⟩ q := ⟨hholds, hnamed, hsize, hcreated.clusterSize_eq, hwithin⟩
  rw [← hnext]
  exact hrep.run hlimit hops

def newImage : Qcow2File (BackingFile Empty) :=
  ⟨createFile 4096 9 none, createHeader 4096 9 none, tableAt (createFile 4096 9 none).data 1536 1,
    tableAt (createFile 4096 9 none).data 512 64, ∅, 0, 2048, none⟩

theorem newImage_create {openImage : PathBuf → HostFile → Except Qcow2Error (Qcow2File Empty)} :
    create 4096 9 baseHost (openBackingFile baseHost openImage) basePath none = .ok newImage := by
  have hlen : (createFile 4096 9 none).len = 2048 := by decide
  rw [create_alone (by decide) (by decide) (by decide) (by rw [hlen]; decide), hlen]
  rfl

theorem create_flat_disk_new :
    (outcomes baseHost (openBackingFile baseHost fun _ _ => .error .noSuchFile) basePath newImage
      [DiskOp.writeAt 510 [1, 2, 3], .reopen, .readAt 508 6]).map (·.result) =
        [.ok [], .ok [], .ok [0, 0, 1, 2, 3, 0]] := by
  have hzero : ∀ e ∈ newImage.l1Table, e = 0 := by decide
  have hops : ∀ op ∈ [DiskOp.writeAt 510 [1, 2, 3], .reopen, .readAt 508 6], op.InBounds 4096 := by
    simp [DiskOp.InBounds]
  obtain ⟨d, hlen, hsteps⟩ := create_flat_disk baseHost (by decide) (fun _ _ => .error .noSuchFile) basePath none 4096 9
    (by decide) newImage newImage_create hzero (by decide) (fun _ h => by cases h) _ hops
  obtain ⟨a, b, c, houtcomes⟩ := List.length_eq_three.mp hlen
  have hused : alignUp (createFile 4096 9 none).len (2 ^ 9) = 2048 := by decide
  rw [houtcomes, hused] at hsteps
  rw [houtcomes]
  obtain ⟨d₁, hwrite, hsteps⟩ := hsteps.of_cons
  obtain ⟨d₂, hreopen, hsteps⟩ := hsteps.of_cons
  obtain ⟨d₃, hread, -⟩ := hsteps.of_cons
  obtain ⟨⟨bytes, hok⟩, -⟩ := hwrite.succeeds (by decide)
  cases hwrite with
  | cut offset data k used hused hfull => cases hok
  | write offset data used hused =>
    cases hreopen
    cases hread
    rfl

end Qcow2File

end CloneVmm.Storage
