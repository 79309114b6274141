import CloneVmm.Storage.CreateLayout
import CloneVmm.Storage.Mirror
import CloneVmm.Storage.Refinement

namespace CloneVmm.Storage

open CloneVmm.Lib CloneVmm.Lib.Prog

namespace Qcow2File

section Open

variable {B : Type} {openBacking : PathBuf → Except Qcow2Error B} {path : PathBuf} {file : HostFile}
  {base : ByteStore} {I : B → Prop}

open Classical in
noncomputable def openFlat (base : ByteStore) (I : B → Prop) (openBacking : PathBuf → Except Qcow2Error B)
    (path : PathBuf) : Except Qcow2Error Flat :=
  match openBacking path with
  | .error e => .error e
  | .ok b => if I b then .ok ⟨base⟩ else .error .noSuchFile

theorem openFlat_eq_ok {flat : Flat} :
    openFlat base I openBacking path = .ok flat ↔ ∃ b, openBacking path = .ok b ∧ I b ∧ flat = ⟨base⟩ := by
  unfold openFlat
  cases openBacking path with
  | error e => simp
  | ok b =>
    by_cases hb : I b
    · simp [hb, eq_comm]
    · simp [hb]

theorem openFile_eq_ok_iff {q : Qcow2File B} : openFile openBacking path file = .ok q ↔
    ∃ header l1Table refcountTable backing, Qcow2Header.readFrom file = .ok header ∧
      readTable file header.l1TableOffset header.l1Size = .ok l1Table ∧
      readTable file header.refcountTableOffset (header.refcountTableClusters * header.clusterSize / 8) =
        .ok refcountTable ∧
      openHeaderBacking openBacking path file header = .ok backing ∧
      q = ⟨file, header, l1Table, refcountTable, ∅, 0, alignUp file.len header.clusterSize, backing⟩ := by
  unfold openFile
  constructor
  · intro h
    obtain ⟨header, hheader, h⟩ := exceptBind_eq_ok.mp h
    obtain ⟨l1Table, hl1, h⟩ := exceptBind_eq_ok.mp h
    obtain ⟨refcountTable, htable, h⟩ := exceptBind_eq_ok.mp h
    obtain ⟨backing, hbacking, h⟩ := exceptBind_eq_ok.mp h
    cases h
    exact ⟨header, l1Table, refcountTable, backing, hheader, hl1, htable, hbacking, rfl⟩
  · rintro ⟨header, l1Table, refcountTable, backing, hheader, hl1, htable, hbacking, rfl⟩
    refine exceptBind_eq_ok.mpr ⟨header, hheader, exceptBind_eq_ok.mpr ⟨l1Table, hl1, ?_⟩⟩
    exact exceptBind_eq_ok.mpr ⟨refcountTable, htable, exceptBind_eq_ok.mpr ⟨backing, hbacking, rfl⟩⟩

theorem openHeaderBacking_flat {header : Qcow2Header} {flat : Option Flat} :
    openHeaderBacking (openFlat base I openBacking) path file header = .ok flat ↔
      ∃ backing, openHeaderBacking openBacking path file header = .ok backing ∧
        flat = (backing.map fun _ => ⟨base⟩) ∧ ∀ b, backing = some b → I b := by
  unfold openHeaderBacking
  split
  · constructor
    · intro h
      obtain ⟨name, hname, h⟩ := exceptBind_eq_ok.mp h
      obtain ⟨_, hopen, h⟩ := exceptBind_eq_ok.mp h
      cases h
      obtain ⟨b, hb, hI, rfl⟩ := openFlat_eq_ok.mp hopen
      refine ⟨some b, exceptBind_eq_ok.mpr ⟨name, hname, exceptBind_eq_ok.mpr ⟨b, hb, rfl⟩⟩, rfl, ?_⟩
      rintro b' ⟨⟩
      exact hI
    · rintro ⟨backing, h, rfl, hI⟩
      obtain ⟨name, hname, h⟩ := exceptBind_eq_ok.mp h
      obtain ⟨b, hb, h⟩ := exceptBind_eq_ok.mp h
      cases h
      have hflat : openFlat base I openBacking (resolveBackingPath path name) = .ok ⟨base⟩ :=
        openFlat_eq_ok.mpr ⟨b, hb, hI b rfl, rfl⟩
      exact exceptBind_eq_ok.mpr ⟨name, hname, exceptBind_eq_ok.mpr ⟨⟨base⟩, hflat, rfl⟩⟩
  · constructor
    · intro h
      cases h
      exact ⟨none, rfl, rfl, fun _ h => by cases h⟩
    · rintro ⟨backing, h, rfl, -⟩
      cases h
      rfl

theorem openFile_flat {p : Qcow2File Flat} : openFile (openFlat base I openBacking) path file = .ok p ↔
    ∃ q, openFile openBacking path file = .ok q ∧ p = q.flat base ∧ ∀ b, q.backing = some b → I b := by
  constructor
  · intro h
    obtain ⟨header, l1Table, refcountTable, flat, hheader, hl1, htable, hflat, rfl⟩ := openFile_eq_ok_iff.mp h
    obtain ⟨backing, hbacking, rfl, hI⟩ := openHeaderBacking_flat.mp hflat
    exact ⟨_, openFile_eq_ok_iff.mpr ⟨header, l1Table, refcountTable, backing, hheader, hl1, htable, hbacking, rfl⟩,
      rfl, hI⟩
  · rintro ⟨q, h, rfl, hI⟩
    obtain ⟨header, l1Table, refcountTable, backing, hheader, hl1, htable, hbacking, rfl⟩ := openFile_eq_ok_iff.mp h
    refine openFile_eq_ok_iff.mpr ⟨header, l1Table, refcountTable, _, hheader, hl1, htable, ?_, rfl⟩
    exact openHeaderBacking_flat.mpr ⟨backing, hbacking, rfl, hI⟩

end Open

section Run

variable {B : Type} [Backing B] {host : Host} {openBacking : PathBuf → Except Qcow2Error B} {path : PathBuf}
  {base : ByteStore} {I : B → Prop} {size bits room : Nat} {d : FlatDisk} {q : Qcow2File B}

structure Overlays (host : Host) (openBacking : PathBuf → Except Qcow2Error B) (path : PathBuf) (base : ByteStore)
    (I : B → Prop) (size bits : Nat) (d : FlatDisk) (q : Qcow2File B) : Prop where
  flat : Represents host (openFlat base I openBacking) path base size (2 ^ bits) d (q.flat base)
  backed : Over I size bits q

theorem Overlays.step (hlimit : host.limit ≤ 2 ^ 54) (hserves : Serves host base room I)
    (hroom : ∀ pos < size, pos - pos % 2 ^ bits + 2 ^ bits ≤ room)
    (h : Overlays host openBacking path base I size bits d q) {op : DiskOp} (hop : op.InBounds size) :
    ∃ q' d', (op.run host openBacking path q).2 = some q' ∧
      FlatStep host.limit (2 ^ bits) base d (op, ⟨(op.run host openBacking path q).1, q'.nextAllocOffset⟩) d' ∧
      Overlays host openBacking path base I size bits d' q' := by
  obtain ⟨p, d', hnext, hstep, hrep⟩ := h.flat.step hlimit hop
  have hflush : Mirrors (Qcow2File.flat base) (Over I size bits) (Qcow2File.flush host) (Qcow2File.flush host) := mirrors_flush
  have hsize : size ≤ room := by
    rcases Nat.eq_zero_or_pos size with rfl | hpos
    · exact Nat.zero_le _
    · have hlast := hroom (size - 1) (by omega)
      have hmod := Nat.mod_lt (size - 1) (Nat.two_pow_pos bits)
      omega
  cases op with
  | readAt offset n =>
    obtain ⟨hrun, hover⟩ := mirrors_readAt hserves hsize offset n q h.backed
    simp only [DiskOp.run] at hnext hstep ⊢
    rw [hrun] at hnext hstep
    cases hnext
    exact ⟨_, d', rfl, hstep, hrep, hover⟩
  | writeAt offset data =>
    obtain ⟨hrun, hover⟩ := mirrors_writeAt hserves hroom offset data q h.backed
    simp only [DiskOp.run] at hnext hstep ⊢
    rw [hrun] at hnext hstep
    cases hnext
    exact ⟨_, d', rfl, hstep, hrep, hover⟩
  | flush =>
    obtain ⟨hrun, hover⟩ := hflush q h.backed
    simp only [DiskOp.run] at hnext hstep ⊢
    rw [hrun] at hnext hstep
    cases hnext
    exact ⟨_, d', rfl, hstep, hrep, hover⟩
  | reopen =>
    obtain ⟨hrun, hover⟩ := hflush q h.backed
    have hflushed := flushed_exec hlimit h.flat.holds.sound h.flat.holds.tableOk
    have hopen := openFile_eq hflushed.sound hflushed.l1Stored (h.flat.flushed hflushed h.flat.flush_moved).named
    rw [hrun] at hopen
    obtain ⟨q', hopen', hq', hI⟩ := openFile_flat.mp hopen
    have hdrop : (q.flat base).drop host = q.drop host := by
      rw [drop, hrun]
      rfl
    have hheader : q'.header = ((Qcow2File.flush host).exec q).2.header := (congrArg Qcow2File.header hq').symm
    simp only [DiskOp.run] at hnext hstep ⊢
    rw [hdrop] at hnext hstep
    change openFile _ path (q.drop host) = _ at hopen
    change openFile _ path (q.drop host) = _ at hopen'
    rw [hopen, hq'] at hnext hstep
    rw [hopen']
    cases hnext
    refine ⟨q', d', rfl, hstep, hrep, hI, ?_⟩
    rw [hheader]
    exact hover.2

theorem Overlays.run (hlimit : host.limit ≤ 2 ^ 54) (hserves : Serves host base room I)
    (hroom : ∀ pos < size, pos - pos % 2 ^ bits + 2 ^ bits ≤ room)
    (h : Overlays host openBacking path base I size bits d q) {ops : List DiskOp}
    (hops : ∀ op ∈ ops, op.InBounds size) :
    ∃ d', (outcomes host openBacking path q ops).length = ops.length ∧
      Steps (FlatStep host.limit (2 ^ bits) base) d (ops.zip (outcomes host openBacking path q ops)) d' := by
  induction ops generalizing d q with
  | nil => exact ⟨d, rfl, .nil d⟩
  | cons op ops ih =>
    obtain ⟨q', d', hnext, hstep, hover⟩ := h.step hlimit hserves hroom (hops op List.mem_cons_self)
    obtain ⟨d'', hlen, hsteps⟩ := ih hover fun op' hop' => hops op' (List.mem_cons_of_mem op hop')
    refine ⟨d'', ?_, ?_⟩
    · simp only [outcomes, hnext, Option.map_some, Option.getD_some, List.length_cons, hlen]
    · simp only [outcomes, hnext, Option.map_some, Option.getD_some, List.zip_cons_cons]
      exact .cons hstep hsteps

theorem Overlays.readable (hserves : Serves host base room I) (hroom : size ≤ room)
    (h : Overlays host openBacking path base I size bits d q) :
    Readable host (flatByte base d.writes) size (BackingFile.qcow2 q) := by
  refine ⟨fun b => ∃ image, b = .qcow2 image ∧ Over I size bits image ∧
    Holds host base (flatByte base d.writes) (image.flat base), ⟨q, rfl, h.backed, h.flat.holds⟩, ?_⟩
  rintro _ ⟨image, rfl, hover, hholds⟩ offset n hend
  obtain ⟨hrun, hover'⟩ := mirrors_readAt hserves hroom offset n image hover
  have hwp := wp_readAt hholds (show offset + n ≤ (image.flat base).header.size from hover.2.1 ▸ hend)
  cases hres : (readAt host offset n).exec image with
  | mk r image' =>
    rw [hres] at hrun hover'
    cases r with
    | error e => exact (hwp.error hrun).elim
    | ok bytes =>
      obtain ⟨rfl, hreading⟩ := hwp.ok hrun
      refine ⟨.qcow2 image', ?_, image', rfl, hover', hreading.holds⟩
      change (((readAt host offset n).exec image).1, BackingFile.qcow2 ((readAt host offset n).exec image).2) = _
      rw [hres]

end Run

section Create

variable {B : Type} {host : Host} {openBacking : PathBuf → Except Qcow2Error B} {path : PathBuf} {name : Option String}
  {base : ByteStore} {I : B → Prop} {v b : Nat} {q : Qcow2File B}

theorem create_flat (h : create v b host openBacking path name = .ok q) (hI : ∀ b', q.backing = some b' → I b') :
    create v b host (openFlat base I openBacking) path name = .ok (q.flat base) := by
  obtain ⟨hlo, hhi, hname, hlen, hopen⟩ := create_eq_ok h
  unfold create
  rw [if_neg (not_not.mpr ⟨hlo, hhi⟩), if_neg (Nat.not_lt.mpr hname), if_neg (Nat.not_lt.mpr hlen)]
  exact openFile_flat.mpr ⟨q, hopen, rfl, hI⟩

variable (hfit : SizesFit v b) (hcreate : create v b host openBacking path name = .ok q)

include hfit hcreate

theorem created_of_sizesFit : v < 2 ^ 64 ∧ Created v b name q := by
  obtain ⟨hlo, hhi, -, -, -⟩ := create_eq_ok hcreate
  have hv : v < 2 ^ 64 := by
    have hcs := Nat.two_pow_pos b
    have hround := hfit.1
    omega
  exact ⟨hv, (create_opened hv (createFileEnd_le ⟨hlo, hhi⟩) hcreate).1⟩

theorem create_covers : q.header.size ≤ q.header.l1Size * q.header.l2EntriesPerTable * q.header.clusterSize := by
  obtain ⟨-, hcreated⟩ := created_of_sizesFit hfit hcreate
  have hcs := pow_bounds hcreated.bits
  have hmul : v ≤ 2 ^ b * (2 ^ b / 8) * createL1Size v b := by
    rw [createL1Size_eq hcreated.bits hfit]
    exact (ceilDiv_le_iff_le_mul (Nat.mul_pos (by omega) (by omega))).mp (Nat.le_refl _)
  rw [hcreated.header]
  calc v ≤ 2 ^ b * (2 ^ b / 8) * createL1Size v b := hmul
    _ = createL1Size v b * (2 ^ b / 8) * 2 ^ b := by ring

theorem create_l1Zero (hblocks : RoomForBlocks v b) : ∀ e ∈ q.l1Table, e = 0 := by
  obtain ⟨-, hcreated⟩ := created_of_sizesFit hfit hcreate
  have hzero := l1Zero_create hcreated.bits hcreated.name_le ((roomForBlocks_iff hcreated.bits hfit).mp hblocks)
  rw [hcreated.l1Table, hcreated.file, hcreated.header]
  exact hzero

theorem overlays_create [Backing B] (hlimit : host.limit ≤ 2 ^ 54) (hblocks : RoomForBlocks v b)
    (hI : ∀ b', q.backing = some b' → I b') (hnone : q.backing = none → base = fun _ => 0) :
    Overlays host openBacking path base I v b ⟨[], q.nextAllocOffset⟩ q := by
  obtain ⟨hv, hcreated⟩ := created_of_sizesFit hfit hcreate
  have hsize := hcreated.size_eq
  have hbits := hcreated.clusterBits_eq
  have hflat : create v b host (openFlat base I openBacking) path name = .ok (q.flat base) := create_flat hcreate hI
  have hrests : Rests host base (q.flat base).backing := by
    change Rests host base (q.backing.map _)
    cases hbacking : q.backing with
    | none => exact hnone hbacking
    | some b' => exact fun offset n => rfl
  have hholds := holds_create hv hlimit hflat (create_l1Zero hfit hflat hblocks) hrests (create_covers hfit hflat)
  obtain ⟨-, -, -, -, hopen⟩ := create_eq_ok hflat
  exact ⟨⟨hholds, (create_created hv hlimit hflat).2.2, hsize, hcreated.clusterSize_eq, (within_openFile hopen).1⟩, hI,
    hsize, hbits⟩

end Create

section Uniform

variable {B : Type} [Backing B]

def underBytes (content : ByteStore) : Option (BackingFile B) → ByteStore
  | some (.qcow2 image) => fun pos => if pos < image.header.size then content pos else 0
  | backing => rawBytes backing

def Uniform (host : Host) (openBacking : PathBuf → Except Qcow2Error (BackingFile B)) (path : PathBuf)
    (content : ByteStore) (q : Qcow2File (BackingFile B)) : Prop :=
  ∀ ops : List DiskOp, (∀ op ∈ ops, op.InBounds q.header.size) →
    ∃ d, (outcomes host openBacking path q ops).length = ops.length ∧
      Steps (FlatStep host.limit q.header.clusterSize (underBytes content q.backing)) ⟨[], q.nextAllocOffset⟩
        (ops.zip (outcomes host openBacking path q ops)) d

def Reaches (q : Qcow2File (BackingFile B)) : Prop :=
  ∀ image, q.backing = some (.qcow2 image) →
    q.header.size ⌈/⌉ q.header.clusterSize * q.header.clusterSize ≤ image.header.size

variable {host : Host} {content : ByteStore}

theorem serves_none {room : Nat} : Serves host content room (fun _ : B => False) := fun _ hb => hb.elim

theorem serves_raw (file : HostFile) {room : Nat} :
    Serves host file.data room (fun b => b = (.raw file file.len : BackingFile B)) := by
  rintro _ rfl offset n -
  exact ⟨_, readAt_raw file offset n, rfl⟩

theorem serves_congr {base : ByteStore} {size : Nat} {I : B → Prop} (h : Serves host content size I)
    (hbase : ∀ pos < size, base pos = content pos) : Serves host base size I := by
  intro b hb offset n hend
  have hbytes : readBytes base offset n = readBytes content offset n :=
    readBytes_congr fun pos _ hpos => hbase pos (by omega)
  rw [hbytes]
  exact h b hb offset n hend

theorem cluster_le {size bits pos : Nat} (hpos : pos < size) :
    pos - pos % 2 ^ bits + 2 ^ bits ≤ size ⌈/⌉ 2 ^ bits * 2 ^ bits := by
  have hcs := Nat.two_pow_pos bits
  have hindex : pos / 2 ^ bits < size ⌈/⌉ 2 ^ bits := by
    by_contra hle
    have hge := (ceilDiv_le_iff_le_mul hcs).mp (Nat.le_of_not_lt hle)
    have hdiv := Nat.mul_div_le pos (2 ^ bits)
    omega
  have hsplit := Nat.div_add_mod' pos (2 ^ bits)
  calc pos - pos % 2 ^ bits + 2 ^ bits = (pos / 2 ^ bits + 1) * 2 ^ bits := by rw [Nat.add_mul, Nat.one_mul]; omega
    _ ≤ size ⌈/⌉ 2 ^ bits * 2 ^ bits := Nat.mul_le_mul_right _ hindex

section Overlay

variable {openImage : PathBuf → HostFile → Except Qcow2Error (Qcow2File B)} {path : PathBuf} {name : Option String}
  {v b : Nat} {q : Qcow2File (BackingFile B)} (hlimit : host.limit ≤ 2 ^ 54) (hfit : SizesFit v b)
  (hblocks : RoomForBlocks v b) (hcreate : create v b host (openBackingFile host openImage) path name = .ok q)
  (hcontent : ∀ image, q.backing = some (.qcow2 image) →
    Readable host content image.header.size (BackingFile.qcow2 image))

include hlimit hfit hblocks hcreate

theorem uniform_of_serves {base : ByteStore} {I : BackingFile B → Prop} {room : Nat}
    (hbase : underBytes content q.backing = base) (hI : ∀ b', q.backing = some b' → I b')
    (hnone : q.backing = none → base = fun _ => 0) (hserves : Serves host base room I)
    (hroom : ∀ pos < v, pos - pos % 2 ^ b + 2 ^ b ≤ room) :
    Uniform host (openBackingFile host openImage) path content q := by
  intro ops hops
  obtain ⟨-, hcreated⟩ := created_of_sizesFit hfit hcreate
  have hover := overlays_create hfit hcreate hlimit hblocks hI hnone
  rw [hcreated.header] at hops
  rw [hbase, hcreated.clusterSize_eq]
  exact hover.run hlimit hserves hroom hops

include hcontent

theorem uniform_of_reaches (hreaches : Reaches q) : Uniform host (openBackingFile host openImage) path content q := by
  obtain ⟨hv, hcreated⟩ := created_of_sizesFit hfit hcreate
  have hroom : ∀ pos < v, pos - pos % 2 ^ b + 2 ^ b ≤ v ⌈/⌉ 2 ^ b * 2 ^ b := fun pos hpos => cluster_le hpos
  cases hbacking : q.backing with
  | none =>
    apply uniform_of_serves hlimit hfit hblocks hcreate rfl (I := fun _ => False) ?_ ?_ serves_none hroom
    · rw [hbacking]
      exact fun _ h => by cases h
    · rw [hbacking]
      exact fun _ => rfl
  | some backing =>
    cases backing with
    | raw file size =>
      obtain ⟨path', hopen⟩ := openHeaderBacking_some (hbacking ▸ (create_created hv hlimit hcreate).2.2.opens)
      obtain rfl := openBackingFile_raw hopen
      have hunder : underBytes content q.backing = file.data := by
        rw [hbacking]
        rfl
      apply uniform_of_serves hlimit hfit hblocks hcreate hunder ?_ ?_ (serves_raw file) hroom
      · rintro b' hb'
        exact Option.some.inj (hb'.symm.trans hbacking)
      · intro hnone
        rw [hbacking] at hnone
        cases hnone
    | qcow2 image =>
      obtain ⟨I, hI, hserves⟩ := hcontent image hbacking
      have hclusters : v ⌈/⌉ 2 ^ b * 2 ^ b ≤ image.header.size := by
        have hle := hreaches image hbacking
        rwa [hcreated.clusterSize_eq, hcreated.header] at hle
      have hunder : underBytes content q.backing = fun pos => if pos < image.header.size then content pos else 0 := by
        rw [hbacking]
        rfl
      have hbase : Serves host (fun pos => if pos < image.header.size then content pos else 0) image.header.size I :=
        serves_congr hserves fun pos hpos => if_pos hpos
      apply uniform_of_serves hlimit hfit hblocks hcreate hunder ?_ ?_ hbase fun pos hpos => (hroom pos hpos).trans hclusters
      · intro b' hb'
        cases hb'.symm.trans hbacking
        exact hI
      · intro hnone
        rw [hbacking] at hnone
        cases hnone

end Overlay

end Uniform

section Past

variable {B : Type} [Backing B] {host : Host} {q : Qcow2File (BackingFile B)} {image : Qcow2File B} {pos : Nat}

theorem translateCluster_none {C : Type} {q : Qcow2File C} (hentry : q.l1Table[l1IndexOf q.header pos]? = some 0)
    (hsize : q.header.l1Size < 2 ^ 32) (hindex : l1IndexOf q.header pos < q.header.l1Size) :
    (translateCluster host pos).exec q = (.ok none, q) := by
  have hwp : (translateCluster host pos).Wp (fun r t => r = none ∧ t = q) (fun _ _ => False) q := by
    unfold translateCluster
    apply wp_get_bind
    dsimp only
    rw [Nat.mod_eq_of_lt (by omega), if_pos hindex]
    apply Wp.bind
    apply wp_orFail hentry
    exact wp_pure ⟨rfl, rfl⟩
  cases hrun : (translateCluster host pos).exec q with
  | mk r t =>
    cases r with
    | error e => exact (hwp.error hrun).elim
    | ok r =>
      obtain ⟨rfl, rfl⟩ := hwp.ok hrun
      rfl

theorem translateCluster_zero {C : Type} {q : Qcow2File C} (hzero : ∀ e ∈ q.l1Table, e = 0)
    (hlength : q.l1Table.length = q.header.l1Size) (hsize : q.header.l1Size < 2 ^ 32)
    (hindex : l1IndexOf q.header pos < q.header.l1Size) : (translateCluster host pos).exec q = (.ok none, q) := by
  apply translateCluster_none _ hsize hindex
  rw [List.getElem?_eq_getElem (by omega)]
  exact congrArg some (hzero _ (List.getElem_mem _))

theorem wp_readBacking_past (hbacking : q.backing = some (.qcow2 image)) {offset n : Nat}
    (hpast : image.header.size < offset + n) :
    (readBacking host offset n).Wp (fun _ _ => False) (fun e _ => e ≠ .refused) q := by
  have hwp : (readAt host offset n).Wp (fun _ _ => False) (fun e _ => e ≠ .refused) image := by
    unfold readAt
    apply wp_get_bind
    dsimp only
    split
    · exact wp_throw (by decide)
    · rw [if_neg (by omega)]
      exact wp_throw (by decide)
  cases hrun : (readAt host offset n).exec image with
  | mk r image' =>
    have hread : Backing.readAt host (BackingFile.qcow2 image) offset n = (r, .qcow2 image') := by
      change (((readAt host offset n).exec image).1, BackingFile.qcow2 ((readAt host offset n).exec image).2) = _
      rw [hrun]
    cases r with
    | ok bytes => exact (hwp.ok hrun).elim
    | error e => exact wp_of_exec_error (readBacking_some hbacking hread) (hwp.error hrun)

theorem chunkLen_one (bits pos : Nat) : chunkLen bits pos 1 = 1 := by
  have hlt := Nat.mod_lt pos (Nat.two_pow_pos bits)
  unfold chunkLen
  omega

variable (hbacking : q.backing = some (.qcow2 image)) (htranslate : (translateCluster host pos).exec q = (.ok none, q))
  (hsize : q.header.size < 2 ^ 64) (hpos : pos < q.header.size)

include hbacking htranslate hsize hpos

theorem wp_readAt_past (hpast : image.header.size ≤ pos) :
    (readAt host pos 1).Wp (fun _ _ => False) (fun e _ => e ≠ .refused) q := by
  unfold readAt
  apply wp_get_bind
  dsimp only
  rw [if_neg (by omega), if_pos (by omega)]
  unfold readLoop
  rw [dif_pos (by omega), chunkLen_one]
  apply Wp.fails_bind
  apply Wp.bind
  exact wp_of_exec htranslate (wp_readBacking_past hbacking (by omega))

theorem wp_writeAt_past {off : Nat} {q' : Qcow2File (BackingFile B)} (halloc : (allocCluster host).exec q = (.ok off, q'))
    (hkept : q'.backing = q.backing) (hpart : 1 < 2 ^ q.header.clusterBits)
    (hpast : image.header.size < pos - pos % 2 ^ q.header.clusterBits + 2 ^ q.header.clusterBits) :
    (writeAt host pos [0]).Wp (fun _ _ => False) (fun e _ => e ≠ .refused) q := by
  unfold writeAt
  apply wp_get_bind
  dsimp only
  rw [List.length_singleton, if_neg (by omega), if_pos (by omega)]
  unfold writeLoop
  rw [dif_pos (by decide), List.length_singleton, chunkLen_one]
  apply Wp.fails_bind
  apply Wp.fails_bind
  apply Wp.bind
  apply wp_of_exec htranslate
  apply Wp.bind
  apply wp_of_exec halloc
  apply Wp.fails_bind
  unfold fillCluster
  rw [if_pos (show (List.take 1 [(0 : UInt8)]).length < _ from hpart)]
  apply Wp.fails_bind
  exact wp_readBacking_past (hkept.trans hbacking) hpast

end Past

section Exact

variable {B : Type} [Backing B] {host : Host} {openImage : PathBuf → HostFile → Except Qcow2Error (Qcow2File B)}
  {path : PathBuf} {name : Option String} {v b : Nat} {q : Qcow2File (BackingFile B)} {content : ByteStore}

theorem refused_of_flatStep {limit cs used : Nat} {base : ByteStore} {d d' : FlatDisk} {op : DiskOp} {e : Qcow2Error}
    (h : FlatStep limit cs base d (op, ⟨.error e, used⟩) d') : e = .refused := by
  cases h with
  | cut => rfl
  | unflushed => rfl

theorem not_uniform_of_run (op : DiskOp) {e : Qcow2Error} (hop : op.InBounds q.header.size)
    (hrun : (op.run host (openBackingFile host openImage) path q).1 = .error e) (he : e ≠ .refused) :
    ¬ Uniform host (openBackingFile host openImage) path content q := by
  intro h
  obtain ⟨d, -, hsteps⟩ := h [op] fun op' hop' => by rwa [List.mem_singleton.mp hop']
  rw [outcomes, hrun, List.zip_cons_cons] at hsteps
  cases hsteps with
  | cons hstep _ => exact he (refused_of_flatStep hstep)

omit [Backing B] in
theorem translateCluster_create (hfit : SizesFit v b) (hblocks : RoomForBlocks v b)
    (hcreate : create v b host (openBackingFile host openImage) path name = .ok q) {pos : Nat}
    (hpos : pos < v) : (translateCluster host pos).exec q = (.ok none, q) := by
  obtain ⟨-, hcreated⟩ := created_of_sizesFit hfit hcreate
  have hcovers := create_covers hfit hcreate
  have hsize := hcreated.size_eq
  apply translateCluster_zero (create_l1Zero hfit hcreate hblocks)
  · rw [hcreated.l1Table, tableAt_length]
  · exact hcreated.fits.l1Size
  · apply Nat.div_lt_of_lt_mul
    apply Nat.div_lt_of_lt_mul
    calc pos < q.header.l1Size * q.header.l2EntriesPerTable * q.header.clusterSize := by omega
      _ = q.header.clusterSize * (q.header.l2EntriesPerTable * q.header.l1Size) := by ring

section Short

variable (hfit : SizesFit v b) (hblocks : RoomForBlocks v b)
  (hcreate : create v b host (openBackingFile host openImage) path name = .ok q) {image : Qcow2File B}
  (hbacking : q.backing = some (.qcow2 image))

include hfit hblocks hcreate hbacking

theorem not_uniform_of_longer (hlonger : image.header.size < v) :
    ¬ Uniform host (openBackingFile host openImage) path content q := by
  obtain ⟨hv, hcreated⟩ := created_of_sizesFit hfit hcreate
  have hsize := hcreated.size_eq
  have htranslate := translateCluster_create hfit hblocks hcreate (show v - 1 < v by omega)
  have hwp := wp_readAt_past hbacking htranslate (by omega) (by omega) (by omega)
  cases hrun : (readAt host (v - 1) 1).exec q with
  | mk r t =>
    cases r with
    | ok bytes => exact (hwp.ok hrun).elim
    | error e =>
      refine not_uniform_of_run (.readAt (v - 1) 1) ?_ ?_ (hwp.error hrun)
      · change v - 1 + 1 ≤ _
        omega
      · change ((readAt host (v - 1) 1).exec q).1 = _
        rw [hrun]

theorem not_uniform_of_part (hlimit : host.limit ≤ 2 ^ 54) {off : Nat} {q' : Qcow2File (BackingFile B)}
    (halloc : (allocCluster host).exec q = (.ok off, q')) (hpos : 0 < v)
    (hshort : image.header.size < v ⌈/⌉ 2 ^ b * 2 ^ b) : ¬ Uniform host (openBackingFile host openImage) path content q := by
  obtain ⟨hv, hcreated⟩ := created_of_sizesFit hfit hcreate
  have hcs := pow_bounds hcreated.bits
  have hsize := hcreated.size_eq
  have hbits := hcreated.clusterBits_eq
  have htranslate := translateCluster_create hfit hblocks hcreate (show v - 1 < v by omega)
  have hkept : q'.backing = q.backing := by
    have hsound : Sound host [] q :=
      hcreated.sound (create_l1Zero hfit hcreate hblocks) hlimit (create_created hv hlimit hcreate).2.1
    exact ((wp_allocCluster hsound hcreated.tableOk).ok halloc).backing
  have hclusters : v ⌈/⌉ 2 ^ b * 2 ^ b ≤ v - 1 - (v - 1) % 2 ^ b + 2 ^ b := by
    have hsplit := Nat.div_add_mod' (v - 1) (2 ^ b)
    have hmod := Nat.mod_lt (v - 1) (Nat.two_pow_pos b)
    have hle : v ⌈/⌉ 2 ^ b ≤ (v - 1) / 2 ^ b + 1 := by
      rw [ceilDiv_le_iff_le_mul (by omega), Nat.mul_comm, Nat.add_mul]
      omega
    have hmul := Nat.mul_le_mul_right (2 ^ b) hle
    rw [Nat.add_mul] at hmul
    omega
  have hwp := wp_writeAt_past hbacking htranslate (by omega) (by omega) halloc hkept (by rw [hbits]; omega)
    (by rw [hbits]; omega)
  cases hrun : (writeAt host (v - 1) [0]).exec q with
  | mk r t =>
    cases r with
    | ok _ => exact (hwp.ok hrun).elim
    | error e =>
      refine not_uniform_of_run (.writeAt (v - 1) [0]) ?_ ?_ (hwp.error hrun)
      · change v - 1 + 1 ≤ _
        omega
      · change ((writeAt host (v - 1) [0]).exec q).1.map _ = _
        rw [hrun]
        rfl

end Short

/-- Reads and writes of a new overlay, whatever is under it, are those of a flat disk over the bytes
under it where the image under it reaches to the end of its clusters; and where it does not, they are
not, unless the host does not let the overlay grow by a single cluster. -/
theorem overlay_uniform_iff (hlimit : host.limit ≤ 2 ^ 54) (hfit : SizesFit v b) (hblocks : RoomForBlocks v b)
    (hcreate : create v b host (openBackingFile host openImage) path name = .ok q)
    (hcontent : ∀ image, q.backing = some (.qcow2 image) →
      Readable host content image.header.size (BackingFile.qcow2 image)) :
    (Reaches q → Uniform host (openBackingFile host openImage) path content q) ∧
      ((∃ off q', (allocCluster host).exec q = (.ok off, q')) →
        Uniform host (openBackingFile host openImage) path content q → Reaches q) := by
  refine ⟨uniform_of_reaches hlimit hfit hblocks hcreate hcontent, ?_⟩
  rintro ⟨off, q', halloc⟩ huniform image hbacking
  obtain ⟨-, hcreated⟩ := created_of_sizesFit hfit hcreate
  by_contra hshort
  rw [hcreated.clusterSize_eq, hcreated.header, not_le] at hshort
  rcases Nat.eq_zero_or_pos v with rfl | hpos
  · change image.header.size < 0 ⌈/⌉ 2 ^ b * 2 ^ b at hshort
    rw [zero_ceilDiv, Nat.zero_mul] at hshort
    exact Nat.not_lt_zero _ hshort
  · exact not_uniform_of_part hfit hblocks hcreate hbacking hlimit halloc hpos hshort huniform

end Exact

def chainHost : Host :=
  { baseHost with files := fun path => if path = basePath then some (createFile 4096 9 none) else none }

def chainImage : Qcow2File Empty :=
  ⟨createFile 4096 9 none, createHeader 4096 9 none, tableAt (createFile 4096 9 none).data 1536 1,
    tableAt (createFile 4096 9 none).data 512 64, ∅, 0, 2048, none⟩

def openChainImage : PathBuf → HostFile → Except Qcow2Error (Qcow2File Empty) :=
  openFile fun _ => .error .noSuchFile

def overlayPath : PathBuf := .ofStr "/overlay.qcow2"

theorem chainImage_create :
    create 4096 9 chainHost (fun _ => .error .noSuchFile) basePath none = .ok chainImage := by
  have hlen : (createFile 4096 9 none).len = 2048 := by decide
  rw [create_alone (by decide) (by decide) (by decide) (by rw [hlen]; decide), hlen]
  rfl

theorem chainImage_open : openBackingFile chainHost openChainImage basePath = .ok (.qcow2 chainImage) := by
  obtain ⟨-, -, -, -, hopen⟩ := create_eq_ok chainImage_create
  have hmagic : (createFile 4096 9 none).readExact 0 4 = some [0x51, 0x46, 0x49, 0xfb] := by decide
  have hopen' : openChainImage basePath (createFile 4096 9 none) = .ok chainImage := hopen
  unfold openBackingFile
  change (if (createFile 4096 9 none).readExact 0 4 = _ then _ else _) = _
  rw [if_pos hmagic, hopen']
  rfl

theorem chainImage_readable : Readable chainHost (fun _ => 0) 4096 (BackingFile.qcow2 chainImage) := by
  have hover : Overlays chainHost _ basePath (fun _ => 0) (fun _ => False) 4096 9 ⟨[], chainImage.nextAllocOffset⟩ chainImage :=
    overlays_create ⟨by decide, by decide⟩ chainImage_create (by decide) (by change _ ≤ _; decide)
      (fun _ h => by cases h) fun _ => rfl
  exact hover.readable serves_none (Nat.le_refl _)

theorem overlay_create {v : Nat} (hv : v < 2 ^ 64) (hlen : (createFile v 9 (some "/base.qcow2")).len ≤ 2 ^ 40) :
    ∃ q, create v 9 chainHost (openBackingFile chainHost openChainImage) overlayPath (some "/base.qcow2") = .ok q ∧
      q.backing = some (.qcow2 chainImage) :=
  ⟨_, create_of_backing hv (by decide) (createFileEnd_le (by decide)) (by decide) hlen
    (openHeaderBacking_createFile (by decide) (by decide) chainImage_open), rfl⟩

theorem overlay_uniform_same : ∃ q,
    create 4096 9 chainHost (openBackingFile chainHost openChainImage) overlayPath (some "/base.qcow2") = .ok q ∧
      Uniform chainHost (openBackingFile chainHost openChainImage) overlayPath (fun _ => 0) q := by
  obtain ⟨q, hcreate, hbacking⟩ := overlay_create (v := 4096) (by decide) (by decide)
  have hfit : SizesFit 4096 9 := ⟨by decide, by decide⟩
  obtain ⟨-, hcreated⟩ := created_of_sizesFit hfit hcreate
  refine ⟨q, hcreate, (overlay_uniform_iff (by decide) hfit (by change _ ≤ _; decide) hcreate ?_).1 ?_⟩
  · intro image himage
    cases himage.symm.trans hbacking
    exact chainImage_readable
  · intro image himage
    cases himage.symm.trans hbacking
    rw [hcreated.clusterSize_eq, hcreated.header]
    decide

theorem overlay_uniform_fails : ∃ q,
    create 8192 9 chainHost (openBackingFile chainHost openChainImage) overlayPath (some "/base.qcow2") = .ok q ∧
      q.backing = some (.qcow2 chainImage) ∧
      Readable chainHost (fun _ => 0) chainImage.header.size (BackingFile.qcow2 chainImage) ∧
      ¬ Uniform chainHost (openBackingFile chainHost openChainImage) overlayPath (fun _ => 0) q := by
  obtain ⟨q, hcreate, hbacking⟩ := overlay_create (v := 8192) (by decide) (by decide)
  refine ⟨q, hcreate, hbacking, chainImage_readable, ?_⟩
  exact not_uniform_of_longer ⟨by decide, by decide⟩ (by change _ ≤ _; decide) hcreate hbacking (by decide)

end Qcow2File

end CloneVmm.Storage
