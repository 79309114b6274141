import CloneVmm.Boot.ChainHistory
import CloneVmm.Boot.GcSnapshots

namespace CloneVmm.Boot

open CloneVmm.Lib CloneVmm.Lib.FileTree CloneVmm.Memory CloneVmm.Vmm

structure Image where
  memory : List UInt8
  vcpuStates : List VcpuState
  deviceStates : DeviceStates

namespace Capture

variable (c : Capture)

def Logged (page : Nat) : Prop :=
  page < min (c.kvmSlotSize / pageSize) (c.guestMem.size / pageSize) ∧ c.kvm.reported page = true

instance (page : Nat) : Decidable (c.Logged page) := inferInstanceAs (Decidable (_ ∧ _))

def image : Image := ⟨readBytes c.mem 0 c.guestMem.size, c.vcpuStates, c.deviceStates⟩

theorem image_length : c.image.memory.length = c.guestMem.size := readBytes_length _ _ _

/-- The guest's memory where KVM has logged a write, and the base elsewhere. -/
def onto (base : List UInt8) : Image :=
  ⟨base.mapIdx fun i b => if c.Logged (i / pageSize) then c.mem i else b, c.vcpuStates, c.deviceStates⟩

end Capture

/-- A snapshot: the directories of its chain, its own first, and what it stands for. -/
structure Entry where
  dirs : List String
  image : Image

inductive Operation
  | full (c : Capture) (args : TemplateArgs) (dir : String)
  | incremental (c : Capture) (base dir : String)
  | compact (leaf out : String)
  | gc (base : String) (activeTags removed : List String)

def Operation.output : Operation → Option String
  | .full _ _ dir | .incremental _ _ dir | .compact _ dir => some dir
  | .gc _ _ _ => none

def snapshotFiles : List String := ["incremental.json", "template.json", "memory.raw", "dirty_pages.raw"]

def Spared (cwd : List String) (base : String) (removed dirs : List String) : Prop :=
  ∀ dir ∈ dirs, ∀ name ∈ snapshotFiles, ∀ place ∈ pathPlaces cwd ((Path.parse dir).child name),
    under (target cwd (Path.parse base)) removed place = false

instance (cwd : List String) (base : String) (removed dirs : List String) : Decidable (Spared cwd base removed dirs) :=
  inferInstanceAs (Decidable (∀ dir ∈ dirs, ∀ name ∈ snapshotFiles, ∀ place ∈ _, _))

inductive Recorded (cwd : List String) : List Entry → Operation → List Entry → Prop
  | full (entries : List Entry) (c : Capture) (args : TemplateArgs) (dir : String) :
      Recorded cwd entries (.full c args dir) (⟨[dir], c.image⟩ :: entries)
  | incremental {entries : List Entry} {base : String} {dirs : List String} {image : Image} (c : Capture) (dir : String) :
      ⟨base :: dirs, image⟩ ∈ entries → image.memory.length = c.guestMem.size →
      Recorded cwd entries (.incremental c base dir) (⟨dir :: base :: dirs, c.onto image.memory⟩ :: entries)
  | compact {entries : List Entry} {leaf : String} {dirs : List String} {image : Image} (out : String) :
      ⟨leaf :: dirs, image⟩ ∈ entries → Recorded cwd entries (.compact leaf out) (⟨[out], image⟩ :: entries)
  | gc (entries : List Entry) (base : String) (activeTags removed : List String) :
      Recorded cwd entries (.gc base activeTags removed) (entries.filter fun e => Spared cwd base removed e.dirs)

def SnapshotWriter.Performs (host : SnapshotWriter) (tree : ByteTree) : Operation → ByteTree → Prop
  | .full c args dir, tree' => ∃ snapshot, host.saveTemplate tree c args dir = .ok (tree', snapshot)
  | .incremental c base dir, tree' => ∃ inc kvm, host.saveIncremental tree c base dir = .ok (tree', inc, kvm)
  | .compact leaf out, tree' => ∃ snapshot, host.compactChain tree leaf out = .ok (tree', snapshot)
  | .gc base activeTags removed, tree' => host.chainHost.gcSnapshots tree base activeTags = .ok (tree', removed)

structure Repository where
  tree : ByteTree
  entries : List Entry

structure RepositoryStep (host : SnapshotWriter) (s : Repository) (op : Operation) (t : Repository) : Prop where
  performs : host.Performs s.tree op t.tree
  recorded : Recorded host.cwd s.entries op t.entries
  fresh : ∀ dir ∈ op.output, FreshDir host.toSnapshotHost s.tree dir

def Operation.capture : Operation → Option Capture
  | .full c _ _ | .incremental c _ _ => some c
  | .compact _ _ | .gc _ _ _ => none

/-- Where an incremental snapshot is saved, KVM has logged every page that is no longer as in the base. -/
def Marked (s : Repository) : Operation → Prop
  | .incremental c base _ => ∀ e ∈ s.entries, e.dirs.head? = some base → ∀ i < c.guestMem.size,
      e.image.memory[i]? ≠ some (c.mem i) → c.Logged (i / pageSize)
  | _ => True

section Diff

variable {c : Capture} {base : List UInt8} {baseTemplate : String}

theorem applyDiff_onto (hbase : base.length = c.guestMem.size) :
    applyDiff base (Boot.saveIncremental c.mem c.guestMem.size c.kvm c.vcpuStates c.deviceStates baseTemplate
      c.kvmSlotSize).1 = (c.onto base).memory := by
  apply List.ext_getElem?
  intro i
  rw [applyDiff_getElem? hbase, Capture.onto, List.getElem?_mapIdx]
  have hlogged : (i / pageSize < min (c.kvmSlotSize / pageSize) (c.guestMem.size / pageSize) ∧
      pageDirty ((DirtyPageTracker.new c.kvmSlotSize).getDirtyBitmap c.kvm).1 (i / pageSize) = true) ↔
      c.Logged (i / pageSize) := by
    apply and_congr_right
    intro hpage
    rw [getDirtyBitmap_pageDirty _ _ _ (Nat.lt_min.mp hpage).1]
  by_cases hpage : c.Logged (i / pageSize)
  · have hi : i < base.length := by
      have hlt := (Nat.lt_min.mp hpage.1).2
      simp only [pageSize] at hlt
      omega
    rw [if_pos (hlogged.mpr hpage), List.getElem?_eq_getElem hi, Option.map_some, if_pos hpage]
  · rw [if_neg (mt hlogged.mp hpage)]
    cases base[i]? with
    | none => rfl
    | some b => rw [Option.map_some, if_neg hpage]

theorem Capture.onto_eq (hbase : base.length = c.guestMem.size)
    (hlogged : ∀ i < c.guestMem.size, base[i]? ≠ some (c.mem i) → c.Logged (i / pageSize)) : c.onto base = c.image := by
  have hmemory : (base.mapIdx fun i b => if c.Logged (i / pageSize) then c.mem i else b) =
      readBytes c.mem 0 c.guestMem.size := by
    apply List.ext_getElem?
    intro i
    rw [List.getElem?_mapIdx]
    by_cases hi : i < c.guestMem.size
    · rw [readBytes_getElem? _ _ _ _ hi, Nat.zero_add, List.getElem?_eq_getElem (by omega), Option.map_some]
      by_cases hpage : c.Logged (i / pageSize)
      · rw [if_pos hpage]
      · have hsame := not_not.mp (mt (hlogged i hi) hpage)
        rw [List.getElem?_eq_getElem (by omega)] at hsame
        rw [if_neg hpage, hsame]
    · rw [List.getElem?_eq_none (by omega), List.getElem?_eq_none (by rw [readBytes_length]; omega), Option.map_none]
  rw [Capture.onto, Capture.image, hmemory]

theorem readAt_zero {m : GuestMem} {mem : ByteStore} {len : Nat} {data : List UInt8}
    (h : m.readAt mem 0 len = .ok data) : data = readBytes mem 0 len := by
  obtain ⟨offset, hoffset, hread⟩ := exceptBind_eq_ok.mp h
  have hzero : offset = 0 := by
    unfold GuestMem.gpaToOffset at hoffset
    split at hoffset
    · split at hoffset
      · cases hoffset
      · cases hoffset
        rfl
    · rw [if_pos (Nat.pos_of_ne_zero ‹_›)] at hoffset
      cases hoffset
      rfl
  split at hread
  · cases hread
  · cases hread
    rw [hzero]

end Diff

inductive Stored (host : SnapshotHost) (tree : ByteTree) : List String → Image → Prop
  | full {dir : String} {full : TemplateSnapshot} {memory : List UInt8} :
      (∀ inc, host.loadIncremental tree dir ≠ .ok inc) → host.loadTemplate tree dir = .ok full →
      full.parentTag = none → full.chainDepth = 0 → full.memoryFile = SnapshotHost.memoryPath dir →
      tree.readToString host.cwd ((Path.parse dir).child "memory.raw") = some memory →
      Stored host tree [dir] ⟨memory, full.vcpuStates, full.deviceStates⟩
  | incremental {dir base : String} {dirs : List String} {inc : IncrementalFile} {pages : List UInt8} {image : Image} :
      IncrementalAt host tree dir base inc → inc.dirtyPagesFile = dirtyPagesPath dir →
      tree.readToString host.cwd ((Path.parse dir).child "dirty_pages.raw") = some pages →
      Stored host tree (base :: dirs) image →
      Stored host tree (dir :: base :: dirs)
        ⟨applyDiff image.memory (inc.withPages pages), inc.vcpuStates, inc.deviceStates⟩

section Stored

variable {host : SnapshotHost} {tree tree' : ByteTree} {dirs : List String} {image : Image}

theorem parse_memoryPath (dir : String) : Path.parse (SnapshotHost.memoryPath dir) = (Path.parse dir).child "memory.raw" :=
  parse_joinText dir (by decide) (by decide) (by decide)

theorem parse_dirtyPagesPath (dir : String) : Path.parse (dirtyPagesPath dir) = (Path.parse dir).child "dirty_pages.raw" :=
  parse_joinText dir (by decide) (by decide) (by decide)

theorem lookup_of_read {dir name : String} {data : List UInt8}
    (h : tree.readToString host.cwd ((Path.parse dir).child name) = some data) :
    tree.lookup host.cwd (Path.parse dir) = some .dir := by
  rw [readToString_eq_some, FileTree.lookup, Path.child, resolve_append] at h
  rw [FileTree.lookup]
  split at h
  · assumption
  · cases h

theorem node_of_read {dir name : String} {data : List UInt8} (hname : name ≠ "..")
    (h : tree.readToString host.cwd ((Path.parse dir).child name) = some data) :
    tree.node? (target host.cwd (Path.parse dir) ++ [name]) = some (.file data) := by
  have hdir := lookup_of_read h
  rwa [readToString_eq_some, lookup_child hname hdir] at h

def Agree (host : SnapshotHost) (tree tree' : ByteTree) (dirs : List String) : Prop :=
  ∀ dir ∈ dirs, ∀ name ∈ snapshotFiles, tree'.readToString host.cwd ((Path.parse dir).child name) =
    tree.readToString host.cwd ((Path.parse dir).child name)

theorem Stored.agree (h : Stored host tree dirs image) (hagree : Agree host tree tree' dirs) :
    Stored host tree' dirs image := by
  induction h with
  | @full dir full memory hinc hfull hparent hdepth hfile hmemory =>
    have hsame := hagree dir (List.mem_singleton.mpr rfl)
    have hincSame := hsame "incremental.json" (by simp [snapshotFiles])
    have htemplateSame := hsame "template.json" (by simp [snapshotFiles])
    have hmemorySame := hsame "memory.raw" (by simp [snapshotFiles])
    rw [hmemory] at hmemorySame
    obtain ⟨data, hread, hparse, -⟩ := loadTemplate_eq_ok.mp hfull
    refine .full ?_ (loadTemplate_eq_ok.mpr ⟨data, htemplateSame.trans hread, hparse, ?_⟩) hparent hdepth hfile hmemorySame
    · intro inc hload
      obtain ⟨json, hjson, hparsed⟩ := loadIncremental_eq_ok.mp hload
      exact hinc inc (loadIncremental_eq_ok.mpr ⟨json, hincSame.symm.trans hjson, hparsed⟩)
    · rw [hfile, parse_memoryPath]
      exact Option.isSome_iff_exists.mpr ⟨_, readToString_eq_some.mp hmemorySame⟩
  | @incremental dir base dirs inc pages image hat hfile hpages _ ih =>
    have hsame := hagree dir List.mem_cons_self
    obtain ⟨json, hjson, hparse⟩ := loadIncremental_eq_ok.mp hat.loads
    have hload := (hsame "incremental.json" (by simp [snapshotFiles])).trans hjson
    refine .incremental ⟨loadIncremental_eq_ok.mpr ⟨json, hload, hparse⟩, hat.parent, hat.depth⟩ hfile ?_ (ih ?_)
    · exact (hsame "dirty_pages.raw" (by simp [snapshotFiles])).trans hpages
    · exact fun other hother => hagree other (List.mem_cons_of_mem _ hother)

theorem Stored.file (h : Stored host tree dirs image) : ∀ dir ∈ dirs, ∃ name data, name ≠ ".." ∧
    tree.readToString host.cwd ((Path.parse dir).child name) = some data := by
  induction h with
  | full _ _ _ _ _ hmemory =>
    intro dir hdir
    rw [List.mem_singleton] at hdir
    subst hdir
    exact ⟨"memory.raw", _, by decide, hmemory⟩
  | incremental _ _ hpages _ ih =>
    intro dir hdir
    rcases List.mem_cons.mp hdir with rfl | hdir
    · exact ⟨"dirty_pages.raw", _, by decide, hpages⟩
    · exact ih dir hdir

theorem Stored.cons (h : Stored host tree dirs image) : ∃ leaf rest, dirs = leaf :: rest := by
  cases h with
  | full => exact ⟨_, _, rfl⟩
  | incremental => exact ⟨_, _, rfl⟩

theorem Stored.linked (h : Stored host tree dirs image) : Linked host tree dirs := by
  induction h with
  | full hinc hfull hparent hdepth _ _ => exact .root ⟨hinc, _, hfull, hparent, hdepth⟩
  | incremental hat _ _ _ ih => exact .link hat ih

theorem Stored.parts (h : Stored host tree dirs image) : ∃ root rest rootMem diffs, dirs.reverse = root :: rest ∧
    host.rootMemory tree root = .ok rootMem ∧
    List.Forall₂ (fun dir diff => host.loadDiff tree dir = .ok diff) rest diffs ∧
    diffs.foldl applyDiff rootMem = image.memory := by
  induction h with
  | @full dir full memory hinc hfull hparent hdepth hfile hmemory =>
    have hread : tree.readToString host.cwd (Path.parse full.memoryFile) = some memory := by
      rw [hfile, parse_memoryPath]
      exact hmemory
    exact ⟨dir, [], memory, [], rfl, rootMemory_eq_ok.mpr ⟨full, hfull, hread⟩, .nil, rfl⟩
  | @incremental dir base dirs inc pages image hat hfile hpages _ ih =>
    obtain ⟨root, rest, rootMem, diffs, hdirs, hroot, hdiffs, hmemory⟩ := ih
    have hread : tree.readToString host.cwd (Path.parse inc.dirtyPagesFile) = some pages := by
      rw [hfile, parse_dirtyPagesPath]
      exact hpages
    refine ⟨root, rest ++ [dir], rootMem, diffs ++ [inc.withPages pages], ?_, hroot, ?_, ?_⟩
    · rw [List.reverse_cons, hdirs, List.cons_append]
    · exact List.rel_append hdiffs (.cons (loadDiff_eq_ok.mpr ⟨inc, pages, hat.loads, hread, rfl⟩) .nil)
    · rw [List.foldl_append, hmemory, List.foldl_cons, List.foldl_nil]

theorem Stored.leafStates (h : Stored host tree dirs image) {leaf : String} {rest : List String}
    (hdirs : dirs = leaf :: rest) : host.leafStates tree leaf = .ok (image.vcpuStates, image.deviceStates) := by
  unfold SnapshotHost.leafStates
  cases h with
  | full hinc hfull _ _ _ _ =>
    cases hdirs
    cases hload : host.loadIncremental tree leaf with
    | ok inc => exact absurd hload (hinc inc)
    | error message =>
      dsimp only
      rw [hfull]
      rfl
  | incremental hat _ _ _ =>
    cases hdirs
    rw [hat.loads]

theorem Linked.tooLong {dirs : List String} (h : Linked host tree dirs) {leaf : String} {rest : List String}
    (hdirs : dirs = leaf :: rest) {left : Nat} {chain : List ChainNode} (hshort : chain.length ≤ 256)
    (hlong : 256 < chain.length + rest.length) : ∃ message, host.chainHost.walkFrom tree left chain leaf = .error message := by
  induction h generalizing leaf rest left chain with
  | root _ =>
    cases hdirs
    rw [List.length_nil] at hlong
    omega
  | @link dir base dirs inc hat _ ih =>
    cases hdirs
    cases left with
    | zero => exact ⟨_, rfl⟩
    | succ left =>
      rw [List.length_cons] at hlong
      by_cases hlast : chain.length = 256
      · refine ⟨Host.tooDeep (Host.parentOf inc.toIncrementalMeta), ?_⟩
        rw [Host.walkFrom, chainHost_loadIncremental, hat.loads]
        dsimp only [Except.toOption, Option.map_some]
        rw [if_pos (by rw [List.length_cons]; omega)]
      · rw [walkFrom_incremental hat (by omega)]
        apply ih rfl
        · rw [List.length_cons]
          omega
        · rw [List.length_cons]
          omega

theorem Stored.resolves (h : Stored host tree dirs image) {leaf : String} {rest : List String}
    (hdirs : dirs = leaf :: rest) :
    if rest.length ≤ 256 then
      host.resolveChain tree leaf = .ok (image.memory, image.vcpuStates, image.deviceStates)
    else ∃ message, host.resolveChain tree leaf = .error message := by
  split
  · rename_i hshort
    obtain ⟨nodes, hwalk, hnodes⟩ := h.linked.walkFrom hdirs
      (show ([] : List ChainNode).length + rest.length ≤ 256 by rw [List.length_nil]; omega)
      (show rest.length < 257 by omega)
    rw [List.append_nil] at hwalk
    obtain ⟨root, others, rootMem, diffs, hreverse, hroot, hdiffs, hmemory⟩ := h.parts
    rw [hreverse] at hnodes
    obtain ⟨rootNode, otherNodes, rfl, hrootNode, hotherNodes⟩ := List.map_eq_cons_iff.mp hnodes
    refine resolveChain_eq_ok.mpr ⟨rootNode, otherNodes, rootMem, diffs, hwalk, ?_, ?_, hmemory, ?_⟩
    · rw [hrootNode]
      exact hroot
    · rw [← hotherNodes, List.forall₂_map_left_iff] at hdiffs
      exact hdiffs
    · rw [walkChain_getLast hwalk]
      exact h.leafStates hdirs
  · have hlong : ∃ message, host.chainHost.walkFrom tree 257 [] leaf = .error message :=
      h.linked.tooLong hdirs (Nat.zero_le _) (by rw [List.length_nil]; omega)
    obtain ⟨message, herror⟩ := hlong
    refine ⟨message, ?_⟩
    rw [SnapshotHost.resolveChain, SnapshotHost.walkChain, Host.walkChain, herror]
    rfl

end Stored

section Agree

variable {host : SnapshotHost} {tree tree' tree'' : ByteTree} {dirs : List String} {dir : String} {image : Image}

def DirectlyIn (host : SnapshotHost) (dir : String) (place : List String) : Prop :=
  ∃ name, place = target host.cwd (Path.parse dir) ++ [name]

theorem updates_mono {P Q : List String → Prop} (h : Updates P tree tree') (hPQ : ∀ place, P place → Q place) :
    Updates Q tree tree' where
  dirs := h.dirs
  files := by
    intro place content hnode
    obtain ⟨content', hnode', hsame⟩ := h.files place content hnode
    exact ⟨content', hnode', hsame.imp_left (hPQ place)⟩
  onlyNew place content hnode := (h.onlyNew place content hnode).imp_left (hPQ place)

theorem saveMetadata_updates {snapshot : TemplateSnapshot} (h : host.saveMetadata tree snapshot dir = .ok tree') :
    Updates (DirectlyIn host dir) tree tree' := by
  obtain ⟨dirTree, hdir, h⟩ := exceptBind_eq_ok.mp h
  obtain ⟨json, -, hwrite⟩ := exceptBind_eq_ok.mp h
  rw [orError_eq_ok] at hdir hwrite
  have hmade : Updates (DirectlyIn host dir) tree dirTree := .of_createDirAll hdir
  apply hmade.trans
  apply Updates.of_writeFile hwrite
  rw [templateFile, target_child (by decide)]
  exact ⟨_, rfl⟩

theorem savedTemplate_updates {snapshot : TemplateSnapshot} {memory : List UInt8} {madeTree memTree : ByteTree}
    (hmake : tree.createDirAll host.cwd (Path.parse dir) = some madeTree)
    (hmem : madeTree.writeFile host.cwd ((Path.parse dir).child "memory.raw") memory = some memTree)
    (hsave : host.saveMetadata memTree snapshot dir = .ok tree') : Updates (DirectlyIn host dir) tree tree' := by
  have hmade : Updates (DirectlyIn host dir) tree madeTree := .of_createDirAll hmake
  have hwritten : Updates (DirectlyIn host dir) madeTree memTree := by
    apply Updates.of_writeFile hmem
    rw [target_child (by decide)]
    exact ⟨_, rfl⟩
  exact (hmade.trans hwritten).trans (saveMetadata_updates hsave)

theorem Stored.updates (h : Stored host tree dirs image) (hfresh : FreshDir host tree dir)
    (hupdates : Updates (DirectlyIn host dir) tree tree') : Stored host tree' dirs image := by
  apply h.agree
  intro other hother name hname
  obtain ⟨file, data, hfile, hread⟩ := h.file other hother
  have hne : name ≠ ".." := by
    rintro rfl
    exact absurd hname (by decide)
  apply hupdates.readToString_child hne (lookup_of_read hread)
  rintro ⟨name', hplace⟩
  have hnode := node_of_read hfile hread
  rw [(List.append_inj' hplace rfl).1, hfresh] at hnode
  cases hnode

end Agree

section Gc

variable {γ : Type} {host : Host γ} {tree : FileTree γ} {base : String} {keep : List String}

def Gone (host : Host γ) (tree : FileTree γ) (base : String) (acc : FileTree γ × List String) : Prop :=
  ∃ P : List String → Bool, acc.1 = tree.without P ∧
    ∀ place, P place = true → under (target host.cwd (Path.parse base)) acc.2 place = true

theorem Gone.collect {acc : FileTree γ × List String} (h : Gone host tree base acc) (name : String) :
    Gone host tree base (host.collect base keep acc name) := by
  unfold Host.collect
  split
  · rename_i hcollectable
    split
    · rename_i removed hremove
      obtain ⟨P, htree, hP⟩ := h
      have hname : name ≠ ".." := by
        rintro rfl
        exact absurd hcollectable (by simp [Host.isCollectable])
      unfold removeDirAll at hremove
      split at hremove
      · cases hremove
        rw [target_child hname]
        refine ⟨fun place => P place || (target host.cwd (Path.parse base) ++ [name]).isPrefixOf place, ?_, ?_⟩
        · rw [htree, without, without, without, List.filter_filter]
          dsimp only
          congr 1
          apply List.filter_congr
          intro entry _
          rw [Bool.not_or, Bool.and_comm]
        · intro place hplace
          rw [under_append]
          rcases Bool.or_eq_true_iff.mp hplace with hold | hnew
          · rw [hP place hold, Bool.true_or]
          · have hone : under (target host.cwd (Path.parse base)) [name] place = true := by
              rw [under, List.any_cons, hnew, Bool.true_or]
            rw [hone, Bool.or_true]
      · cases hremove
    · exact h
  · exact h

theorem Gone.foldl {acc : FileTree γ × List String} (h : Gone host tree base acc) (names : List String) :
    Gone host tree base (names.foldl (host.collect base keep) acc) := by
  induction names generalizing acc with
  | nil => exact h
  | cons name names ih => exact ih (h.collect name)

theorem gcSnapshots_gone {activeTags removed : List String} {tree' : FileTree γ}
    (h : host.gcSnapshots tree base activeTags = .ok (tree', removed)) : Gone host tree base (tree', removed) := by
  have hstart : Gone host tree base (tree, []) := by
    refine ⟨fun _ => false, ?_, fun place hplace => by cases hplace⟩
    rw [without]
    simp
  unfold Host.gcSnapshots at h
  dsimp only at h
  split at h
  · cases h
  · rename_i names _
    rw [← Except.ok.inj h]
    exact hstart.foldl names

theorem Gone.readToString {acc : FileTree γ × List String} (h : Gone host tree base acc) {p : Path}
    (hspared : ∀ place ∈ pathPlaces host.cwd p, under (target host.cwd (Path.parse base)) acc.2 place = false) :
    acc.1.readToString host.cwd p = tree.readToString host.cwd p := by
  obtain ⟨P, htree, hP⟩ := h
  have hnone : (places (start host.cwd p) p.comps).any P = false := by
    rw [List.any_eq_false]
    intro place hplace hgone
    exact absurd (hP place hgone) (Bool.eq_false_iff.mp (hspared place hplace))
  unfold FileTree.readToString
  rw [htree, lookup, resolve_without, hnone]
  rfl

end Gc

section New

variable {host : SnapshotWriter} {tree tree' : ByteTree} {c : Capture} {args : TemplateArgs} {dir base leaf : String}
  {image : Image} {dirs : List String}

theorem stored_of_saved (hserde : RoundTrips host.toSnapshotHost) (hfresh : FreshDir host.toSnapshotHost tree dir)
    {snapshot : TemplateSnapshot} {memory : List UInt8} {madeTree memTree : ByteTree}
    (hmake : tree.createDirAll host.cwd (Path.parse dir) = some madeTree)
    (hmem : madeTree.writeFile host.cwd ((Path.parse dir).child "memory.raw") memory = some memTree)
    (hsave : host.saveMetadata memTree snapshot dir = .ok tree') (hfile : snapshot.memoryFile = SnapshotHost.memoryPath dir)
    (hparent : snapshot.parentTag = none) (hdepth : snapshot.chainDepth = 0) :
    Stored host.toSnapshotHost tree' [dir] ⟨memory, snapshot.vcpuStates, snapshot.deviceStates⟩ := by
  obtain ⟨-, hinc, hload, hread⟩ := savedTemplate_loads hserde hfresh hmake hmem hsave hfile
  rw [hfile, parse_memoryPath] at hread
  exact .full hinc hload hparent hdepth hfile hread

theorem saveTemplate_stored (hserde : RoundTrips host.toSnapshotHost) (hfresh : FreshDir host.toSnapshotHost tree dir)
    {snapshot : TemplateSnapshot} (h : host.saveTemplate tree c args dir = .ok (tree', snapshot)) :
    Stored host.toSnapshotHost tree' [dir] c.image ∧ Updates (DirectlyIn host.toSnapshotHost dir) tree tree' := by
  obtain ⟨madeTree, hmake, h⟩ := exceptBind_eq_ok.mp h
  obtain ⟨memData, hdata, h⟩ := exceptBind_eq_ok.mp h
  obtain ⟨memTree, hmem, h⟩ := exceptBind_eq_ok.mp h
  obtain ⟨savedTree, hsave, h⟩ := exceptBind_eq_ok.mp h
  cases h
  rw [orError_eq_ok] at hmake hmem
  have hstored := stored_of_saved hserde hfresh hmake hmem hsave rfl rfl rfl
  rw [readAt_zero hdata] at hstored
  exact ⟨hstored, savedTemplate_updates hmake hmem hsave⟩

theorem saveIncremental_stored (hserde : host.RoundTrips) (hfresh : FreshDir host.toSnapshotHost tree dir)
    (hbase : Stored host.toSnapshotHost tree (base :: dirs) image) (hlen : image.memory.length = c.guestMem.size)
    {inc : IncrementalFile} {kvm : DirtyLog} (h : host.saveIncremental tree c base dir = .ok (tree', inc, kvm)) :
    Stored host.toSnapshotHost tree' (dir :: base :: dirs) (c.onto image.memory) ∧
      Updates (DirectlyIn host.toSnapshotHost dir) tree tree' := by
  have hat := saveIncremental_loads hserde h
  have hupdates : Updates (DirectlyIn host.toSnapshotHost dir) tree tree' := by
    apply updates_mono (saveIncremental_updates h)
    rintro place (hplace | hplace)
    · exact ⟨_, hplace⟩
    · exact ⟨_, hplace⟩
  obtain ⟨⟨snapshot, kvm'⟩, hcollected, h⟩ := exceptBind_eq_ok.mp h
  obtain ⟨madeTree, -, h⟩ := exceptBind_eq_ok.mp h
  obtain ⟨pagesTree, hpages, h⟩ := exceptBind_eq_ok.mp h
  obtain ⟨savedTree, hsave, h⟩ := exceptBind_eq_ok.mp h
  obtain ⟨dirTree, hdir, hsave⟩ := exceptBind_eq_ok.mp hsave
  obtain ⟨json, -, hwrite⟩ := exceptBind_eq_ok.mp hsave
  cases h
  rw [orError_eq_ok] at hpages hdir hwrite
  have hread : tree'.readToString host.cwd ((Path.parse dir).child "dirty_pages.raw") = some snapshot.dirtyPages := by
    have hlast : Updates (fun place => place = target host.cwd (incrementalFile dir)) pagesTree tree' :=
      (Updates.of_createDirAll hdir).trans (.of_writeFile hwrite rfl)
    apply hlast.readToString (readToString_writeFile (by decide) hpages)
    rw [incrementalFile, target_child (by decide), target_child (by decide)]
    exact fun heq => absurd (List.append_cancel_left heq) (by decide)
  refine ⟨?_, hupdates⟩
  have hstored := Stored.incremental hat rfl hread (hbase.updates hfresh hupdates)
  unfold SnapshotWriter.collected at hcollected
  split at hcollected
  · cases hcollected
  · have hsnapshot : snapshot = (Boot.saveIncremental c.mem c.guestMem.size c.kvm c.vcpuStates c.deviceStates base
        c.kvmSlotSize).1 := congrArg Prod.fst (Except.ok.inj hcollected).symm
    rw [toFile_withPages, hsnapshot, applyDiff_onto hlen] at hstored
    exact hstored

theorem compactChain_depth {out : String} {snapshot : TemplateSnapshot}
    (h : host.compactChain tree leaf out = .ok (tree', snapshot)) : snapshot.chainDepth = 0 := by
  obtain ⟨⟨mem, vcpuStates, deviceStates⟩, -, h⟩ := exceptBind_eq_ok.mp h
  obtain ⟨madeTree, -, h⟩ := exceptBind_eq_ok.mp h
  obtain ⟨memTree, -, h⟩ := exceptBind_eq_ok.mp h
  obtain ⟨chain, -, h⟩ := exceptBind_eq_ok.mp h
  obtain ⟨savedTree, -, h⟩ := exceptBind_eq_ok.mp h
  cases h
  rfl

theorem compactChain_stored (hserde : RoundTrips host.toSnapshotHost) {out : String}
    (hfresh : FreshDir host.toSnapshotHost tree out) (hleaf : Stored host.toSnapshotHost tree (leaf :: dirs) image)
    {snapshot : TemplateSnapshot} (h : host.compactChain tree leaf out = .ok (tree', snapshot)) :
    Stored host.toSnapshotHost tree' [out] image ∧ Updates (DirectlyIn host.toSnapshotHost out) tree tree' := by
  have hdepth := compactChain_depth h
  obtain ⟨mem, vcpuStates, deviceStates, madeTree, memTree, hresolve, hmake, hmem, hsave, hfile, hparent, rfl, rfl⟩ :=
    compactChain_eq_ok h
  have hstored := stored_of_saved hserde hfresh hmake hmem hsave hfile hparent hdepth
  have himage := hleaf.resolves rfl
  rw [hresolve] at himage
  split at himage
  · simp only [Except.ok.injEq, Prod.mk.injEq] at himage
    obtain ⟨rfl, hvcpus, hdevices⟩ := himage
    rw [hvcpus, hdevices] at hstored
    exact ⟨hstored, savedTemplate_updates hmake hmem hsave⟩
  · obtain ⟨message, herror⟩ := himage
    cases herror

end New

section Runs

variable {host : SnapshotWriter} {s t : Repository} {op : Operation}

def Repository.Sound (host : SnapshotWriter) (s : Repository) : Prop :=
  ∀ e ∈ s.entries, Stored host.toSnapshotHost s.tree e.dirs e.image

theorem Repository.Sound.add (h : s.Sound host) {tree' : ByteTree} {dir : String} {e : Entry}
    (hfresh : FreshDir host.toSnapshotHost s.tree dir) (hnew : Stored host.toSnapshotHost tree' e.dirs e.image)
    (hupdates : Updates (DirectlyIn host.toSnapshotHost dir) s.tree tree') :
    Repository.Sound host ⟨tree', e :: s.entries⟩ := by
  intro e' he'
  rcases List.mem_cons.mp he' with rfl | he'
  · exact hnew
  · exact (h e' he').updates hfresh hupdates

theorem Repository.Sound.step (hserde : RoundTrips host.toSnapshotHost) (hincremental : host.RoundTrips)
    (h : s.Sound host) (hstep : RepositoryStep host s op t) : t.Sound host := by
  obtain ⟨tree, entries⟩ := s
  obtain ⟨tree', entries'⟩ := t
  obtain ⟨hperforms, hrecorded, hfresh⟩ := hstep
  cases hrecorded with
  | full c args dir =>
    have hdir := hfresh dir rfl
    obtain ⟨snapshot, hsave⟩ := hperforms
    obtain ⟨hnew, hupdates⟩ := saveTemplate_stored hserde hdir hsave
    exact h.add hdir hnew hupdates
  | incremental c dir hmem hlen =>
    have hdir := hfresh dir rfl
    obtain ⟨inc, kvm, hsave⟩ := hperforms
    obtain ⟨hnew, hupdates⟩ := saveIncremental_stored hincremental hdir (h _ hmem) hlen hsave
    exact h.add hdir hnew hupdates
  | compact out hmem =>
    have hdir := hfresh out rfl
    obtain ⟨snapshot, hcompact⟩ := hperforms
    obtain ⟨hnew, hupdates⟩ := compactChain_stored hserde hdir (h _ hmem) hcompact
    exact h.add hdir hnew hupdates
  | gc base activeTags removed =>
    intro e he
    obtain ⟨hold, hspared⟩ := List.mem_filter.mp he
    apply (h e hold).agree
    intro dir hdir name hname
    exact (gcSnapshots_gone hperforms).readToString (of_decide_eq_true hspared dir hdir name hname)

def Repository.Captured (ops : List Operation) (s : Repository) : Prop :=
  ∀ e ∈ s.entries, ∃ c ∈ ops.filterMap Operation.capture, e.image = c.image

theorem Repository.Captured.add {ops : List Operation} {entries : List Entry} {e : Entry}
    (h : s.Captured ops) (hop : ∃ c ∈ (ops ++ [op]).filterMap Operation.capture, e.image = c.image)
    (hentries : ∀ e' ∈ entries, e' = e ∨ e' ∈ s.entries) :
    ∀ e' ∈ entries, ∃ c ∈ (ops ++ [op]).filterMap Operation.capture, e'.image = c.image := by
  intro e' he'
  rcases hentries e' he' with rfl | hold
  · exact hop
  · obtain ⟨c, hc, himage⟩ := h e' hold
    refine ⟨c, ?_, himage⟩
    rw [List.filterMap_append]
    exact List.mem_append_left _ hc

theorem Repository.Captured.step {ops : List Operation} (h : s.Captured ops) (hstep : RepositoryStep host s op t)
    (hmarked : Marked s op) : t.Captured (ops ++ [op]) := by
  obtain ⟨tree, entries⟩ := s
  obtain ⟨tree', entries'⟩ := t
  have hnew : ∀ c, op.capture = some c → c ∈ (ops ++ [op]).filterMap Operation.capture := fun c hc =>
    List.mem_filterMap.mpr ⟨op, List.mem_append_right _ (List.mem_singleton.mpr rfl), hc⟩
  cases hstep.recorded with
  | full c args dir => exact h.add ⟨c, hnew c rfl, rfl⟩ fun _ => List.mem_cons.mp
  | incremental c dir hmem hlen =>
    exact h.add ⟨c, hnew c rfl, Capture.onto_eq hlen (hmarked _ hmem rfl)⟩ fun _ => List.mem_cons.mp
  | @compact leaf dirs image out hmem =>
    obtain ⟨c, hc, himage⟩ := h _ hmem
    have hop : ∃ c ∈ (ops ++ [Operation.compact leaf out]).filterMap Operation.capture,
        (⟨[out], image⟩ : Entry).image = c.image := by
      refine ⟨c, ?_, himage⟩
      rw [List.filterMap_append]
      exact List.mem_append_left _ hc
    exact h.add hop fun _ => List.mem_cons.mp
  | gc base activeTags removed =>
    intro e he
    obtain ⟨c, hc, himage⟩ := h e (List.mem_filter.mp he).1
    refine ⟨c, ?_, himage⟩
    rw [List.filterMap_append]
    exact List.mem_append_left _ hc

end Runs

theorem snapshots_resolve {host : SnapshotWriter} (hserde : RoundTrips host.toSnapshotHost) (hincremental : host.RoundTrips)
    {tree : ByteTree} {ops : List Operation} {s : Repository} (hrun : Steps (RepositoryStep host) ⟨tree, []⟩ ops s) :
    (∀ e ∈ s.entries, ∃ leaf rest, e.dirs = leaf :: rest ∧
      if rest.length ≤ 256 then
        host.resolveChain s.tree leaf = .ok (e.image.memory, e.image.vcpuStates, e.image.deviceStates)
      else ∃ message, host.resolveChain s.tree leaf = .error message) ∧
    (Steps (fun s op t => RepositoryStep host s op t ∧ Marked s op) ⟨tree, []⟩ ops s →
      ∀ e ∈ s.entries, ∃ c ∈ ops.filterMap Operation.capture, e.image = c.image) := by
  have hsound : s.Sound host := by
    apply Steps.invariant (P := Repository.Sound host) _ hrun
    · exact fun e he => absurd he List.not_mem_nil
    · exact fun _ _ _ hstep h => h.step hserde hincremental hstep
  constructor
  · intro e he
    have hstored := hsound e he
    obtain ⟨leaf, rest, hdirs⟩ := hstored.cons
    exact ⟨leaf, rest, hdirs, hstored.resolves hdirs⟩
  · intro hmarked
    apply Steps.invariant_history (P := Repository.Captured) _ hmarked
    · exact fun e he => absurd he List.not_mem_nil
    · exact fun _ _ _ _ hstep h => h.step hstep.1 hstep.2

def dirtyGuest : Capture := onePageGuest 7 true

def onePageOps : List Operation :=
  [.full blankGuest ⟨"bare", none, 0, none, none⟩ "/snap/root", .incremental dirtyGuest "/snap/root" "/snap/inc1",
    .compact "/snap/inc1" "/out", .gc "/snap" [] ["inc1", "root"]]

def rootEntry : Entry := ⟨["/snap/root"], blankGuest.image⟩

def incEntry : Entry := ⟨["/snap/inc1", "/snap/root"], dirtyGuest.onto blankGuest.image.memory⟩

def outEntry : Entry := ⟨["/out"], incEntry.image⟩

theorem dirtyGuest_logged {i : Nat} (hi : i < 4096) : dirtyGuest.Logged (i / pageSize) := by
  have hpage : i / pageSize = 0 := Nat.div_eq_of_lt hi
  rw [hpage]
  decide

theorem dirtyGuest_pages :
    ((DirtyPageTracker.new 4096).collectDirtyPages ⟨1, fun _ => true⟩ (fun _ => 7) 4096).1.2 = dirtyPage := by
  have hdirty : (List.range (min (DirtyPageTracker.new 4096).totalPages (4096 / pageSize))).filter
      (pageDirty ((DirtyPageTracker.new 4096).getDirtyBitmap ⟨1, fun _ => true⟩).1) = [0] := by decide +kernel
  rw [DirtyPageTracker.collectDirtyPages]
  dsimp only
  rw [hdirty, List.flatMap_singleton, Nat.zero_mul, dirtyPage, pageOf, pageSize]

theorem dirtyGuest_memory : dirtyGuest.image.memory = dirtyPage := by
  simp only [Capture.image, dirtyGuest, onePageGuest, dirtyPage, pageOf]

theorem Capture.image_byte (c : Capture) (h : 0 < c.guestMem.size) : c.image.memory[0]? = some (c.mem 0) :=
  readBytes_getElem? c.mem 0 c.guestMem.size 0 h

theorem onePage_full : RepositoryStep onePageWriter ⟨emptyTree, []⟩
    (.full blankGuest ⟨"bare", none, 0, none, none⟩ "/snap/root") ⟨rootTree, [rootEntry]⟩ := by
  refine ⟨⟨_, onePageWriter_saveTemplate⟩, .full [] _ _ _, ?_⟩
  rintro _ ⟨⟩ name rest
  have htarget : target onePageHost.cwd (Path.parse "/snap/root") = ["snap", "root"] := by decide
  change emptyTree.node? (target onePageHost.cwd (Path.parse "/snap/root") ++ name :: rest) = none
  rw [htarget]
  rfl

theorem onePage_inc : RepositoryStep onePageWriter ⟨rootTree, [rootEntry]⟩
    (.incremental dirtyGuest "/snap/root" "/snap/inc1") ⟨onePageTree, [incEntry, rootEntry]⟩ := by
  have hne : dirtyFile ≠ onRoot 0 := fun h => absurd (congrArg (fun inc => inc.dirtyBitmap) h) (by decide)
  have hrender : onePageWriter.renderIncremental (onRoot 1) = some dirtyJson := by
    rw [show onRoot 1 = dirtyFile from rfl]
    simp only [onePageWriter, if_neg hne, if_true]
  obtain ⟨kvm, hsave⟩ := saveIncremental_onRoot hrender (by decide) dirtyGuest_pages
  refine ⟨⟨_, kvm, hsave⟩, .incremental _ _ (List.mem_singleton.mpr rfl) blankGuest.image_length, ?_⟩
  rintro _ ⟨⟩ name rest
  have htarget : target onePageHost.cwd (Path.parse "/snap/inc1") = ["snap", "inc1"] := by decide
  change rootTree.node? (target onePageHost.cwd (Path.parse "/snap/inc1") ++ name :: rest) = none
  rw [htarget]
  rfl

theorem onePage_out : RepositoryStep onePageWriter ⟨onePageTree, [incEntry, rootEntry]⟩ (.compact "/snap/inc1" "/out")
    ⟨onePageOutTree, [outEntry, incEntry, rootEntry]⟩ := by
  refine ⟨⟨_, onePage_compact⟩, .compact _ List.mem_cons_self, ?_⟩
  rintro _ ⟨⟩
  exact onePageTree_fresh

theorem onePage_gc : ∃ tree, RepositoryStep onePageWriter ⟨onePageOutTree, [outEntry, incEntry, rootEntry]⟩
    (.gc "/snap" [] ["inc1", "root"]) ⟨tree, [outEntry]⟩ := by
  have hperforms : ∃ tree, onePageHost.chainHost.gcSnapshots onePageOutTree "/snap" [] =
      .ok (tree, ["inc1", "root"]) := ⟨_, rfl⟩
  obtain ⟨tree, hperforms⟩ := hperforms
  have hentries : [outEntry] = [outEntry, incEntry, rootEntry].filter fun e =>
      Spared onePageWriter.cwd "/snap" ["inc1", "root"] e.dirs := by
    rfl
  refine ⟨tree, hperforms, ?_, fun dir hdir => by cases hdir⟩
  rw [hentries]
  exact .gc _ _ _ _

theorem snapshots_resolve_onePage : ∃ tree, Steps (RepositoryStep onePageWriter) ⟨emptyTree, []⟩ onePageOps
      ⟨tree, [outEntry]⟩ ∧
    onePageHost.resolveChain tree "/out" = .ok (dirtyPage, [], {}) := by
  obtain ⟨tree, hgc⟩ := onePage_gc
  have hrun : Steps (RepositoryStep onePageWriter) ⟨emptyTree, []⟩ onePageOps ⟨tree, [outEntry]⟩ :=
    .cons onePage_full (.cons onePage_inc (.cons onePage_out (.cons hgc (.nil _))))
  have hmarked : Marked ⟨rootTree, [rootEntry]⟩ (.incremental dirtyGuest "/snap/root" "/snap/inc1") :=
    fun _ _ _ i hi _ => dirtyGuest_logged hi
  obtain ⟨hresolve, hcaptured⟩ := snapshots_resolve onePageHost_roundTrips onePageWriter_roundTrips hrun
  obtain ⟨leaf, rest, hdirs, himage⟩ := hresolve _ List.mem_cons_self
  obtain ⟨c, hc, hsame⟩ := hcaptured (.cons ⟨onePage_full, trivial⟩ (.cons ⟨onePage_inc, hmarked⟩
    (.cons ⟨onePage_out, trivial⟩ (.cons ⟨hgc, trivial⟩ (.nil _))))) _ List.mem_cons_self
  cases hdirs
  rw [if_pos (by decide), hsame] at himage
  have hbyte : outEntry.image.memory[0]? = some 7 := by
    rw [outEntry, incEntry, Capture.onto, List.getElem?_mapIdx, blankGuest.image_byte (by decide), Option.map_some,
      if_pos (dirtyGuest_logged (by decide))]
    rfl
  rw [hsame] at hbyte
  have hcases : c = blankGuest ∨ c = dirtyGuest := by
    simpa [onePageOps, Operation.capture] using hc
  rcases hcases with rfl | rfl
  · rw [blankGuest.image_byte (by decide)] at hbyte
    exact absurd hbyte (by decide)
  · rw [dirtyGuest_memory] at himage
    exact ⟨tree, hrun, himage⟩

end CloneVmm.Boot
