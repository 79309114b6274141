import CloneVmm.Boot.Compaction
import CloneVmm.Lib.Run
import CloneVmm.Memory.GuestRanges

/-!
`boot/template.rs`: chains as `save_template` and `save_incremental` write them, one snapshot on the
other, and what `chain_info` tells of them. Every snapshot is saved with a `chain_depth` of 0.
-/

namespace CloneVmm.Boot

open CloneVmm.Lib CloneVmm.Lib.FileTree CloneVmm.Memory CloneVmm.Vmm

deriving instance DecidableEq for IncrementalMeta, IncrementalFile

structure SnapshotWriter extends SnapshotHost where
  renderIncremental : IncrementalFile → Option (List UInt8)

/-- The paused guest: its mapping, the dirty log of KVM or the error of fetching it, and the captured states. -/
structure Capture where
  guestMem : GuestMem
  mem : ByteStore
  kvm : DirtyLog
  fetchError : Option String := none
  vcpuStates : List VcpuState
  deviceStates : DeviceStates
  kvmSlotSize : Nat

structure TemplateArgs where
  runtimeType : String
  blockDevice : Option String
  clockNs : Nat
  overlayPath : Option String
  guestIp : Option String

structure ChainInfo where
  nodes : List ChainNode
  totalDepth : Nat
  deriving DecidableEq

def IncrementalSnapshot.toFile (snapshot : IncrementalSnapshot) (dirtyPagesFile : String) : IncrementalFile :=
  { baseTemplate := snapshot.baseTemplate, dirtyBitmap := snapshot.dirtyBitmap, dirtyPagesFile,
    vcpuStates := snapshot.vcpuStates, deviceStates := snapshot.deviceStates, memorySize := snapshot.memorySize,
    tag := snapshot.tag, parentTag := snapshot.parentTag, chainDepth := snapshot.chainDepth,
    snapshotType := snapshot.snapshotType }

theorem toFile_withPages (snapshot : IncrementalSnapshot) (dirtyPagesFile : String) :
    (snapshot.toFile dirtyPagesFile).withPages snapshot.dirtyPages = snapshot := rfl

def dirtyPagesPath (outputDir : String) : String := Host.joinText outputDir "dirty_pages.raw"

namespace SnapshotHost

variable (host : SnapshotHost) (tree : ByteTree)

def chainInfo (leafDir : String) : Except String ChainInfo := do
  let nodes ← host.walkChain tree leafDir
  return { nodes, totalDepth := (nodes.getLast?.map ChainNode.chainDepth).getD 0 }

def saveTemplate (c : Capture) (args : TemplateArgs) (outputDir : String) :
    Except String (ByteTree × TemplateSnapshot) := do
  let tree ← orError ("Failed to create output dir: " ++ outputDir)
    (tree.createDirAll host.cwd (Path.parse outputDir))
  let memData ← c.guestMem.readAt c.mem 0 c.guestMem.size
  let tree ← orError ("Failed to write memory dump: " ++ memoryPath outputDir)
    (tree.writeFile host.cwd ((Path.parse outputDir).child "memory.raw") memData)
  let snapshot : TemplateSnapshot :=
    { memoryFile := memoryPath outputDir, vcpuStates := c.vcpuStates, deviceStates := c.deviceStates,
      memorySize := c.guestMem.size, runtimeType := args.runtimeType, memoryHash := hashHex (host.sha256 memData),
      blockDevice := args.blockDevice, clockNs := args.clockNs, overlayPath := args.overlayPath,
      guestIp := args.guestIp, tag := none, parentTag := none, chainDepth := 0, snapshotType := "full" }
  let tree ← host.saveMetadata tree snapshot outputDir
  return (tree, snapshot)

end SnapshotHost

namespace SnapshotWriter

open SnapshotHost

variable (host : SnapshotWriter) (tree : ByteTree)

def saveIncrementalMetadata (inc : IncrementalFile) (outputDir : String) : Except String ByteTree := do
  let tree ← orError ("Failed to create output dir: " ++ outputDir)
    (tree.createDirAll host.cwd (Path.parse outputDir))
  let json ← orError "Failed to serialize incremental snapshot metadata" (host.renderIncremental inc)
  orError ("Failed to write metadata: " ++ Host.joinText outputDir "incremental.json")
    (tree.writeFile host.cwd (incrementalFile outputDir) json)

def collected (c : Capture) (baseTemplate : String) : Except String (IncrementalSnapshot × DirtyLog) :=
  match c.fetchError with
  | some e => .error ("get_dirty_log failed: " ++ e)
  | none =>
    .ok (Boot.saveIncremental c.mem c.guestMem.size c.kvm c.vcpuStates c.deviceStates baseTemplate c.kvmSlotSize)

def saveIncremental (c : Capture) (baseTemplate outputDir : String) :
    Except String (ByteTree × IncrementalFile × DirtyLog) := do
  let (snapshot, kvm) ← collected c baseTemplate
  let tree ← orError ("Failed to create output dir: " ++ outputDir)
    (tree.createDirAll host.cwd (Path.parse outputDir))
  let tree ← orError ("Failed to write dirty pages: " ++ dirtyPagesPath outputDir)
    (tree.writeFile host.cwd ((Path.parse outputDir).child "dirty_pages.raw") snapshot.dirtyPages)
  let inc := snapshot.toFile (dirtyPagesPath outputDir)
  let tree ← host.saveIncrementalMetadata tree inc outputDir
  return (tree, inc, kvm)

def Saves (s : ByteTree × String) (dir : String) (t : ByteTree × String) : Prop :=
  ∃ c inc kvm, host.saveIncremental s.1 c s.2 dir = .ok (t.1, inc, kvm) ∧ t.2 = dir

def RoundTrips : Prop :=
  ∀ inc json, host.renderIncremental inc = some json → host.parseIncremental json = some inc

def place (dir : String) : List String := target host.cwd (Path.parse dir)

def SavedAt (dir : String) (place : List String) : Prop :=
  place = host.place dir ++ ["dirty_pages.raw"] ∨ place = host.place dir ++ ["incremental.json"]

end SnapshotWriter

structure FullSnapshot (host : SnapshotHost) (tree : ByteTree) (dir : String) : Prop where
  noIncremental : ∀ inc, host.loadIncremental tree dir ≠ .ok inc
  template : ∃ full, host.loadTemplate tree dir = .ok full ∧ full.parentTag = none ∧ full.chainDepth = 0

structure IncrementalAt (host : SnapshotHost) (tree : ByteTree) (dir base : String) (inc : IncrementalFile) :
    Prop where
  loads : host.loadIncremental tree dir = .ok inc
  parent : Host.parentOf inc.toIncrementalMeta = base
  depth : inc.chainDepth = 0

inductive Linked (host : SnapshotHost) (tree : ByteTree) : List String → Prop
  | root {dir : String} : FullSnapshot host tree dir → Linked host tree [dir]
  | link {dir base : String} {dirs : List String} {inc : IncrementalFile} :
      IncrementalAt host tree dir base inc → Linked host tree (base :: dirs) → Linked host tree (dir :: base :: dirs)

def Reports (host : SnapshotHost) (tree : ByteTree) (leafDir : String) (dirs : List String) (depth : Nat) : Prop :=
  ∃ info, host.chainInfo tree leafDir = .ok info ∧ info.nodes.map ChainNode.dir = dirs ∧ info.totalDepth = depth

section Save

variable {host : SnapshotWriter} {tree tree' : ByteTree} {c : Capture} {base dir : String} {inc : IncrementalFile}
  {kvm : DirtyLog}

theorem saveIncremental_eq_ok (h : host.saveIncremental tree c base dir = .ok (tree', inc, kvm)) :
    ∃ pages madeTree pagesTree dirTree json,
      tree.createDirAll host.cwd (Path.parse dir) = some madeTree ∧
      madeTree.writeFile host.cwd ((Path.parse dir).child "dirty_pages.raw") pages = some pagesTree ∧
      pagesTree.createDirAll host.cwd (Path.parse dir) = some dirTree ∧
      host.renderIncremental inc = some json ∧
      dirTree.writeFile host.cwd (incrementalFile dir) json = some tree' ∧
      inc.baseTemplate = base ∧ inc.parentTag = none ∧ inc.chainDepth = 0 := by
  obtain ⟨⟨snapshot, kvm'⟩, hcollected, h⟩ := exceptBind_eq_ok.mp h
  obtain ⟨madeTree, hmake, h⟩ := exceptBind_eq_ok.mp h
  obtain ⟨pagesTree, hpages, h⟩ := exceptBind_eq_ok.mp h
  obtain ⟨savedTree, hsave, h⟩ := exceptBind_eq_ok.mp h
  obtain ⟨dirTree, hdir, hsave⟩ := exceptBind_eq_ok.mp hsave
  obtain ⟨json, hjson, hwrite⟩ := exceptBind_eq_ok.mp hsave
  cases h
  unfold SnapshotWriter.collected at hcollected
  split at hcollected
  · cases hcollected
  · cases hcollected
    exact ⟨_, madeTree, pagesTree, dirTree, json, orError_eq_ok.mp hmake, orError_eq_ok.mp hpages,
      orError_eq_ok.mp hdir, orError_eq_ok.mp hjson, orError_eq_ok.mp hwrite, rfl, rfl, rfl⟩

theorem saveIncremental_updates (h : host.saveIncremental tree c base dir = .ok (tree', inc, kvm)) :
    Updates (host.SavedAt dir) tree tree' := by
  obtain ⟨pages, madeTree, pagesTree, dirTree, json, hmake, hpages, hdir, -, hwrite, -⟩ := saveIncremental_eq_ok h
  have hpagesAt : host.SavedAt dir (target host.cwd ((Path.parse dir).child "dirty_pages.raw")) := by
    rw [target_child (by decide)]
    exact .inl rfl
  have hjsonAt : host.SavedAt dir (target host.cwd (incrementalFile dir)) := by
    rw [incrementalFile, target_child (by decide)]
    exact .inr rfl
  have hmade : Updates (host.SavedAt dir) tree madeTree := .of_createDirAll hmake
  have hwritten : Updates (host.SavedAt dir) madeTree pagesTree := .of_writeFile hpages hpagesAt
  have hremade : Updates (host.SavedAt dir) pagesTree dirTree := .of_createDirAll hdir
  exact ((hmade.trans hwritten).trans hremade).trans (.of_writeFile hwrite hjsonAt)

theorem saveIncremental_loads (hserde : host.RoundTrips)
    (h : host.saveIncremental tree c base dir = .ok (tree', inc, kvm)) :
    IncrementalAt host.toSnapshotHost tree' dir base inc := by
  obtain ⟨_, _, _, dirTree, json, -, -, -, hrender, hwrite, hbase, hparent, hdepth⟩ := saveIncremental_eq_ok h
  refine ⟨loadIncremental_eq_ok.mpr ⟨json, readToString_writeFile (by decide) hwrite, hserde _ _ hrender⟩, ?_, hdepth⟩
  rw [Host.parentOf, hparent, hbase]
  rfl

end Save

theorem saveTemplate_full {host : SnapshotHost} {args : TemplateArgs} {snapshot : TemplateSnapshot}
    (hserde : RoundTrips host) (hfresh : FreshDir host tree dir)
    (h : host.saveTemplate tree c args dir = .ok (tree', snapshot)) : FullSnapshot host tree' dir := by
  obtain ⟨madeTree, hmake, h⟩ := exceptBind_eq_ok.mp h
  obtain ⟨memData, -, h⟩ := exceptBind_eq_ok.mp h
  obtain ⟨memTree, hmem, h⟩ := exceptBind_eq_ok.mp h
  obtain ⟨savedTree, hsave, h⟩ := exceptBind_eq_ok.mp h
  cases h
  rw [orError_eq_ok] at hmake hmem
  obtain ⟨-, hinc, hload, -⟩ := savedTemplate_loads hserde hfresh hmake hmem hsave rfl
  exact ⟨hinc, _, hload, rfl, rfl⟩

section Stays

variable {host : SnapshotHost} {tree tree' : ByteTree} {P : List String → Prop} {dir base : String}
  {inc : IncrementalFile}

theorem target_metadata (dir : String) :
    target host.cwd (incrementalFile dir) = target host.cwd (Path.parse dir) ++ ["incremental.json"] ∧
      target host.cwd (templateFile dir) = target host.cwd (Path.parse dir) ++ ["template.json"] :=
  ⟨target_child (by decide), target_child (by decide)⟩

theorem FullSnapshot.updates (h : FullSnapshot host tree dir) (hupdates : Updates P tree tree')
    (hinc : ¬ P (target host.cwd (incrementalFile dir))) (htemplate : ¬ P (target host.cwd (templateFile dir))) :
    FullSnapshot host tree' dir := by
  obtain ⟨hnone, full, hfull, hfields⟩ := h
  obtain ⟨data, hread, hparse, hexists⟩ := loadTemplate_eq_ok.mp hfull
  refine ⟨?_, full, ?_, hfields⟩
  · intro inc hload
    rw [(target_metadata dir).1] at hinc
    have hsame := hupdates.readToString_child (by decide) (lookup_of_loadTemplate hfull) hinc
    obtain ⟨json, hjson, hparsed⟩ := loadIncremental_eq_ok.mp hload
    rw [incrementalFile, hsame] at hjson
    exact hnone inc (loadIncremental_eq_ok.mpr ⟨json, hjson, hparsed⟩)
  · exact loadTemplate_eq_ok.mpr ⟨data, hupdates.readToString hread htemplate, hparse, hupdates.pathExists hexists⟩

theorem IncrementalAt.updates (h : IncrementalAt host tree dir base inc) (hupdates : Updates P tree tree')
    (hinc : ¬ P (target host.cwd (incrementalFile dir))) : IncrementalAt host tree' dir base inc := by
  obtain ⟨json, hjson, hparse⟩ := loadIncremental_eq_ok.mp h.loads
  exact ⟨loadIncremental_eq_ok.mpr ⟨json, hupdates.readToString hjson hinc, hparse⟩, h.parent, h.depth⟩

theorem Linked.updates {dirs : List String} (h : Linked host tree dirs) (hupdates : Updates P tree tree')
    (hinc : ∀ dir ∈ dirs, ¬ P (target host.cwd (incrementalFile dir)))
    (htemplate : ∀ dir ∈ dirs, ¬ P (target host.cwd (templateFile dir))) : Linked host tree' dirs := by
  induction h with
  | @root dir hfull =>
    have hdir : dir ∈ [dir] := List.mem_singleton.mpr rfl
    exact .root (hfull.updates hupdates (hinc dir hdir) (htemplate dir hdir))
  | @link dir base dirs inc hsaved _ ih =>
    refine .link (hsaved.updates hupdates (hinc dir List.mem_cons_self)) (ih ?_ ?_)
    · exact fun other hmem => hinc other (List.mem_cons_of_mem _ hmem)
    · exact fun other hmem => htemplate other (List.mem_cons_of_mem _ hmem)

end Stays

section Walk

variable {host : SnapshotHost} {tree : ByteTree} {dir base leafDir : String} {inc : IncrementalFile}

theorem walkFrom_incremental (h : IncrementalAt host tree dir base inc) {left : Nat} {chain : List ChainNode}
    (hshort : chain.length < 256) :
    host.chainHost.walkFrom tree (left + 1) chain dir =
      host.chainHost.walkFrom tree left (inc.node dir :: chain) base := by
  rw [Host.walkFrom, chainHost_loadIncremental, h.loads]
  dsimp only [Except.toOption, Option.map_some]
  rw [h.parent, List.length_cons, if_neg (by omega)]

theorem Linked.walkFrom {dirs : List String} (h : Linked host tree dirs) {leaf : String} {rest : List String}
    (hdirs : dirs = leaf :: rest) {left : Nat} {chain : List ChainNode} (hshort : chain.length + rest.length ≤ 256)
    (hleft : rest.length < left) :
    ∃ nodes, host.chainHost.walkFrom tree left chain leaf = .ok (nodes ++ chain) ∧
      nodes.map ChainNode.dir = dirs.reverse := by
  induction h generalizing leaf rest left chain with
  | @root dir hfull =>
    cases hdirs
    obtain ⟨left, rfl⟩ := Nat.exists_eq_add_of_lt hleft
    obtain ⟨full, hload, hparent, -⟩ := hfull.template
    exact ⟨[full.node dir], walkFrom_of_template hfull.noIncremental hload hparent _ chain, rfl⟩
  | @link dir base dirs inc hsaved _ ih =>
    cases hdirs
    rw [List.length_cons] at hshort hleft
    obtain ⟨left, rfl⟩ := Nat.exists_eq_add_of_lt (Nat.zero_lt_of_lt hleft)
    rw [Nat.zero_add] at hleft ⊢
    rw [walkFrom_incremental hsaved (by omega)]
    have hshort' : (inc.node dir :: chain).length + dirs.length ≤ 256 := by
      rw [List.length_cons]
      omega
    have hleft' : dirs.length < left := by omega
    obtain ⟨nodes, hwalk, hnodes⟩ := ih rfl hshort' hleft'
    refine ⟨nodes ++ [inc.node dir], ?_, ?_⟩
    · rw [hwalk, List.append_assoc, List.singleton_append]
    · rw [List.map_append, hnodes, List.reverse_cons (a := dir)]
      rfl

theorem walkFrom_suffix {γ : Type} {host : Host γ} {tree : FileTree γ} {left : Nat} {chain nodes : List ChainNode}
    (h : host.walkFrom tree left chain dir = .ok nodes) : ∃ front, nodes = front ++ chain := by
  obtain ⟨front, node, hnodes, -⟩ := walkFrom_snoc h
  exact ⟨front ++ [node], by rw [hnodes, List.append_assoc, List.singleton_append]⟩

theorem depth_of_snoc {front : List ChainNode} {node : ChainNode} (hdepth : node.chainDepth = 0) :
    ((front ++ [node]).getLast?.map ChainNode.chainDepth).getD 0 = 0 := by
  rw [List.getLast?_append_cons, List.getLast?_singleton, Option.map_some, Option.getD_some, hdepth]

theorem totalDepth_eq_zero (h : FullSnapshot host tree dir ∨ ∃ base inc, IncrementalAt host tree dir base inc)
    {info : ChainInfo} (hinfo : host.chainInfo tree dir = .ok info) : info.totalDepth = 0 := by
  obtain ⟨nodes, hwalk, hinfo⟩ := exceptBind_eq_ok.mp hinfo
  cases hinfo
  change host.chainHost.walkFrom tree (256 + 1) [] dir = .ok nodes at hwalk
  rcases h with hfull | ⟨base, inc, hsaved⟩
  · obtain ⟨full, hload, hparent, hdepth⟩ := hfull.template
    rw [walkFrom_of_template hfull.noIncremental hload hparent] at hwalk
    cases hwalk
    exact hdepth
  · rw [walkFrom_incremental hsaved (by decide)] at hwalk
    obtain ⟨front, rfl⟩ := walkFrom_suffix hwalk
    exact depth_of_snoc hsaved.depth

end Walk

section History

variable {host : SnapshotWriter} {tree tree' : ByteTree} {root leaf : String} {dirs : List String}

theorem not_savedAt_metadata {dir other : String} (hne : host.place other ≠ host.place dir) :
    ¬ host.SavedAt dir (target host.cwd (incrementalFile other)) := by
  rw [(target_metadata other).1]
  rintro (heq | heq)
  · exact absurd (List.append_inj' heq rfl).2 (by decide)
  · exact hne (List.append_inj' heq rfl).1

theorem not_savedAt_template (dir other : String) : ¬ host.SavedAt dir (target host.cwd (templateFile other)) := by
  rw [(target_metadata other).2]
  rintro (heq | heq)
  · exact absurd (List.append_inj' heq rfl).2 (by decide)
  · exact absurd (List.append_inj' heq rfl).2 (by decide)

def History (host : SnapshotWriter) (root : String) (dirs : List String) (s : ByteTree × String) : Prop :=
  ((root :: dirs).map host.place).Nodup →
    ∃ rest, (root :: dirs).reverse = s.2 :: rest ∧ Linked host.toSnapshotHost s.1 (s.2 :: rest)

theorem History.saves (hserde : host.RoundTrips) {s t : ByteTree × String} {dir : String} (hsave : host.Saves s dir t)
    (h : History host root dirs s) : History host root (dirs ++ [dir]) t := by
  intro hdistinct
  obtain ⟨c, inc, kvm, hok, rfl⟩ := hsave
  rw [← List.cons_append, List.map_append, List.map_singleton, List.nodup_append] at hdistinct
  obtain ⟨hbefore, -, hnew⟩ := hdistinct
  obtain ⟨rest, hrest, hlinked⟩ := h hbefore
  have hother : ∀ other ∈ s.2 :: rest, host.place other ≠ host.place t.2 := by
    intro other hmem heq
    rw [← hrest, List.mem_reverse] at hmem
    exact hnew _ (List.mem_map_of_mem hmem) _ (List.mem_singleton.mpr rfl) heq
  refine ⟨s.2 :: rest, ?_, .link (saveIncremental_loads hserde hok) ?_⟩
  · rw [← List.cons_append, List.reverse_append, List.reverse_singleton, List.singleton_append, hrest]
  · refine hlinked.updates (saveIncremental_updates hok) ?_ ?_
    · exact fun other hmem => not_savedAt_metadata (hother other hmem)
    · exact fun other _ => not_savedAt_template t.2 other

theorem linked_of_saves (hserde : host.RoundTrips) (hfull : FullSnapshot host.toSnapshotHost tree root)
    (hsaves : Steps host.Saves (tree, root) dirs (tree', leaf)) : History host root dirs (tree', leaf) := by
  refine hsaves.invariant_history (fun before s dir t hsave => History.saves hserde hsave) ?_
  exact fun _ => ⟨[], rfl, .root hfull⟩

theorem leaf_of_saves (hserde : host.RoundTrips) (hfull : FullSnapshot host.toSnapshotHost tree root)
    (hsaves : Steps host.Saves (tree, root) dirs (tree', leaf)) :
    FullSnapshot host.toSnapshotHost tree' leaf ∨
      ∃ base inc, IncrementalAt host.toSnapshotHost tree' leaf base inc := by
  refine hsaves.invariant (P := fun s => FullSnapshot host.toSnapshotHost s.1 s.2 ∨
    ∃ base inc, IncrementalAt host.toSnapshotHost s.1 s.2 base inc) ?_ (.inl hfull)
  rintro s dir t ⟨c, inc, kvm, hok, rfl⟩ -
  exact .inr ⟨s.2, inc, saveIncremental_loads hserde hok⟩

theorem reports_root (hfull : FullSnapshot host.toSnapshotHost tree root) :
    Reports host.toSnapshotHost tree root [root] 0 := by
  obtain ⟨full, hload, hparent, hdepth⟩ := hfull.template
  have hwalk : host.walkChain tree root = .ok [full.node root] :=
    walkFrom_of_template hfull.noIncremental hload hparent 256 []
  exact ⟨⟨[full.node root], _⟩, exceptBind_eq_ok.mpr ⟨_, hwalk, rfl⟩, rfl, hdepth⟩

/-- The directories are listed, but the depth is the number of saves only before the first. -/
theorem chainInfo_saves (hserde : host.RoundTrips) (hfull : FullSnapshot host.toSnapshotHost tree root)
    (hsaves : Steps host.Saves (tree, root) dirs (tree', leaf)) :
    (((root :: dirs).map host.place).Nodup → dirs.length ≤ 256 →
        Reports host.toSnapshotHost tree' leaf (root :: dirs) 0) ∧
      (Reports host.toSnapshotHost tree' leaf (root :: dirs) dirs.length ↔ dirs = []) := by
  have hleaf := leaf_of_saves hserde hfull hsaves
  refine ⟨fun hdistinct hlimit => ?_, fun hreports => ?_, fun hnone => ?_⟩
  · obtain ⟨rest, hrest, hlinked⟩ := linked_of_saves hserde hfull hsaves hdistinct
    have hlength := congrArg List.length hrest
    rw [List.length_reverse, List.length_cons, List.length_cons] at hlength
    obtain ⟨nodes, hwalk, hnodes⟩ := hlinked.walkFrom rfl
      (show ([] : List ChainNode).length + rest.length ≤ 256 by rw [List.length_nil]; omega)
      (show rest.length < 257 by omega)
    rw [List.append_nil] at hwalk
    have hinfo : host.chainInfo tree' leaf = .ok _ := exceptBind_eq_ok.mpr ⟨nodes, hwalk, rfl⟩
    refine ⟨_, hinfo, ?_, totalDepth_eq_zero hleaf hinfo⟩
    exact hnodes.trans (by rw [← hrest, List.reverse_reverse])
  · obtain ⟨info, hinfo, -, hdepth⟩ := hreports
    rw [totalDepth_eq_zero hleaf hinfo] at hdepth
    exact List.eq_nil_of_length_eq_zero hdepth.symm
  · subst hnone
    cases hsaves
    exact reports_root hfull

end History

def onePageGuest (byte : UInt8) (logged : Bool) : Capture where
  guestMem := ⟨4096, 0, 0⟩
  mem := fun _ => byte
  kvm := ⟨1, fun _ => logged⟩
  vcpuStates := []
  deviceStates := {}
  kvmSlotSize := 4096

def blankGuest : Capture := onePageGuest 0 false

def onePageWriter : SnapshotWriter where
  toSnapshotHost := onePageHost
  renderIncremental inc :=
    if inc = onRoot 0 then some (onRootJson "0") else if inc = dirtyFile then some dirtyJson else none

def onRootTree (pages json : List UInt8) : ByteTree :=
  (incDirTree.setNode ["snap", "inc1", "dirty_pages.raw"] (.file pages)).setNode ["snap", "inc1", "incremental.json"]
    (.file json)

def cleanTree : ByteTree := onRootTree [] (onRootJson "0")

theorem onePageWriter_roundTrips : onePageWriter.RoundTrips := by
  intro inc json hrender
  simp only [onePageWriter, onePageHost] at hrender ⊢
  split at hrender
  · obtain rfl := Option.some.inj hrender
    rw [if_pos rfl]
    exact congrArg some (Eq.symm ‹_›)
  · split at hrender
    · obtain rfl := Option.some.inj hrender
      rw [dirtyJson, if_neg onRootJson_ne.symm, if_pos rfl]
      exact congrArg some (Eq.symm ‹_›)
    · cases hrender

theorem onePageWriter_saveTemplate :
    onePageWriter.saveTemplate emptyTree blankGuest ⟨"bare", none, 0, none, none⟩ "/snap/root" =
      .ok (rootTree, blankTemplate) := by
  have hread : blankGuest.guestMem.readAt blankGuest.mem 0 blankGuest.guestMem.size = .ok blankPage := rfl
  have hhash : onePageHost.sha256 blankPage = blankPageHash := by simp only [onePageHost, if_true]
  have hpath : SnapshotHost.memoryPath "/snap/root" = "/snap/root/memory.raw" := by decide
  have hne : blankTemplate ≠ compactedTemplate := fun h =>
    absurd (congrArg (fun t => t.memoryFile) h) (by decide)
  have hrender : onePageHost.renderTemplate blankTemplate = some blankJson := by
    simp only [onePageHost, if_neg hne, if_true]
  refine exceptBind_eq_ok.mpr ⟨rootDirTree, orError_eq_ok.mpr rfl, ?_⟩
  refine exceptBind_eq_ok.mpr ⟨blankPage, hread, ?_⟩
  refine exceptBind_eq_ok.mpr ⟨rootMemTree, orError_eq_ok.mpr rfl, ?_⟩
  dsimp only
  rw [show onePageWriter.sha256 blankPage = blankPageHash from hhash, hpath]
  change (onePageHost.saveMetadata rootMemTree blankTemplate "/snap/root" >>= _) = _
  refine exceptBind_eq_ok.mpr ⟨rootTree, ?_, rfl⟩
  refine exceptBind_eq_ok.mpr ⟨rootMemTree, orError_eq_ok.mpr rfl, ?_⟩
  exact exceptBind_eq_ok.mpr ⟨blankJson, orError_eq_ok.mpr hrender, orError_eq_ok.mpr rfl⟩

theorem rootTree_full : FullSnapshot onePageHost rootTree "/snap/root" := by
  refine saveTemplate_full onePageHost_roundTrips ?_ onePageWriter_saveTemplate
  intro name rest
  have htarget : target onePageHost.cwd (Path.parse "/snap/root") = ["snap", "root"] := by decide
  rw [htarget]
  rfl

theorem saveIncremental_onRoot {byte word : UInt8} {logged : Bool} {pages json : List UInt8}
    (hrender : onePageWriter.renderIncremental (onRoot word) = some json)
    (hbitmap : ((DirtyPageTracker.new 4096).getDirtyBitmap ⟨1, fun _ => logged⟩).1 = [word, 0, 0, 0, 0, 0, 0, 0])
    (hpages : ((DirtyPageTracker.new 4096).collectDirtyPages ⟨1, fun _ => logged⟩ (fun _ => byte) 4096).1.2 = pages) :
    ∃ kvm, onePageWriter.saveIncremental rootTree (onePageGuest byte logged) "/snap/root" "/snap/inc1" =
      .ok (onRootTree pages json, onRoot word, kvm) := by
  have hpath : dirtyPagesPath "/snap/inc1" = "/snap/inc1/dirty_pages.raw" := by decide
  obtain ⟨snapshot, hsnapshot⟩ : ∃ snapshot, snapshot =
      Boot.saveIncremental (fun _ => byte) 4096 ⟨1, fun _ => logged⟩ [] {} "/snap/root" 4096 := ⟨_, rfl⟩
  have hfile : snapshot.1.toFile "/snap/inc1/dirty_pages.raw" = onRoot word := by
    rw [hsnapshot, onRoot, ← hbitmap]
    rfl
  have hdirty : snapshot.1.dirtyPages = pages := by
    rw [hsnapshot, ← hpages]
    rfl
  use snapshot.2
  refine exceptBind_eq_ok.mpr ⟨snapshot, congrArg Except.ok hsnapshot.symm, ?_⟩
  refine exceptBind_eq_ok.mpr ⟨incDirTree, orError_eq_ok.mpr rfl, ?_⟩
  dsimp only
  rw [hpath, hfile, hdirty]
  refine exceptBind_eq_ok.mpr ⟨incDirTree.setNode _ (.file pages), orError_eq_ok.mpr rfl, ?_⟩
  refine exceptBind_eq_ok.mpr ⟨onRootTree pages json, ?_, rfl⟩
  refine exceptBind_eq_ok.mpr ⟨_, orError_eq_ok.mpr rfl, ?_⟩
  exact exceptBind_eq_ok.mpr ⟨json, orError_eq_ok.mpr hrender, orError_eq_ok.mpr rfl⟩

theorem onePageWriter_saves :
    Steps onePageWriter.Saves (rootTree, "/snap/root") ["/snap/inc1"] (cleanTree, "/snap/inc1") := by
  have hrender : onePageWriter.renderIncremental (onRoot 0) = some (onRootJson "0") := by
    simp only [onePageWriter, if_true]
  obtain ⟨kvm, hsave⟩ := @saveIncremental_onRoot 0 0 false [] _ hrender (by decide +kernel) (by decide +kernel)
  have hstep : onePageWriter.Saves (rootTree, "/snap/root") "/snap/inc1" (cleanTree, "/snap/inc1") :=
    ⟨blankGuest, onRoot 0, kvm, hsave, rfl⟩
  exact .cons hstep (.nil _)

theorem chainInfo_saves_onePage : Reports onePageHost cleanTree "/snap/inc1" ["/snap/root", "/snap/inc1"] 0 :=
  (chainInfo_saves onePageWriter_roundTrips rootTree_full onePageWriter_saves).1 (by decide) (by decide)

theorem chainInfo_depth_fails : onePageWriter.RoundTrips ∧ FullSnapshot onePageHost rootTree "/snap/root" ∧
    Steps onePageWriter.Saves (rootTree, "/snap/root") ["/snap/inc1"] (cleanTree, "/snap/inc1") ∧
    ((["/snap/root", "/snap/inc1"] : List String).map onePageWriter.place).Nodup ∧
    ¬ Reports onePageHost cleanTree "/snap/inc1" ["/snap/root", "/snap/inc1"] 1 := by
  refine ⟨onePageWriter_roundTrips, rootTree_full, onePageWriter_saves, by decide, ?_⟩
  rintro ⟨info, hinfo, -, hdepth⟩
  have hleaf := leaf_of_saves onePageWriter_roundTrips rootTree_full onePageWriter_saves
  rw [totalDepth_eq_zero hleaf hinfo] at hdepth
  cases hdepth

end CloneVmm.Boot
