import CloneVmm.Boot.Compact
import CloneVmm.Lib.Prog
import Mathlib.Data.List.Forall2

namespace CloneVmm.Boot

open CloneVmm.Lib CloneVmm.Lib.FileTree CloneVmm.Memory

def HasPage (bitmap dirtyData : List UInt8) (memLen page : Nat) : Prop :=
  pageDirty bitmap page = true ∧ page * pageSize + pageSize ≤ memLen ∧
    markedBefore bitmap page * pageSize + pageSize ≤ dirtyData.length

instance (bitmap dirtyData : List UInt8) (memLen page : Nat) : Decidable (HasPage bitmap dirtyData memLen page) :=
  inferInstanceAs (Decidable (_ ∧ _ ∧ _))

def pageByte (bitmap dirtyData : List UInt8) (i : Nat) : Option UInt8 :=
  dirtyData[markedBefore bitmap (i / pageSize) * pageSize + i % pageSize]?

def IncrementalSnapshot.byte? (diff : IncrementalSnapshot) (memLen i : Nat) : Option UInt8 :=
  if i / pageSize < diff.memorySize / pageSize ∧ HasPage diff.dirtyBitmap diff.dirtyPages memLen (i / pageSize) then
    pageByte diff.dirtyBitmap diff.dirtyPages i
  else none

def overlay (rootMem : List UInt8) (diffs : List IncrementalSnapshot) (i : Nat) : Option UInt8 :=
  diffs.foldl (fun below diff => (diff.byte? rootMem.length i).or below) rootMem[i]?

section ApplyPages

variable {bitmap dirtyData : List UInt8}

theorem not_hasPage_of_break {mem : List UInt8} {page page' : Nat} (hle : page ≤ page')
    (h : bitmap.length ≤ page / 8 ∨ mem.length < page * pageSize + pageSize ∨
      dirtyData.length < markedBefore bitmap page * pageSize + pageSize) :
    ¬ HasPage bitmap dirtyData mem.length page' := by
  rintro ⟨hdirty, hmem, hdata⟩
  have hrank := Nat.mul_le_mul_right pageSize (markedBefore_mono bitmap hle)
  have hoffset := Nat.mul_le_mul_right pageSize hle
  rcases h with h | h | h
  · rw [not_pageDirty_of_length_le (by omega)] at hdirty
    cases hdirty
  · omega
  · omega

theorem applyPages_spec (first count : Nat) (mem : List UInt8) (i : Nat) :
    (applyPages bitmap dirtyData (List.range' first count) mem (markedBefore bitmap first * pageSize))[i]? =
      if (first ≤ i / pageSize ∧ i / pageSize < first + count) ∧ HasPage bitmap dirtyData mem.length (i / pageSize)
      then pageByte bitmap dirtyData i else mem[i]? := by
  induction count generalizing first mem with
  | zero =>
    rw [if_neg (by omega)]
    rfl
  | succ count ih =>
    have hstop : ∀ page, page = first → (bitmap.length ≤ page / 8 ∨ mem.length < page * pageSize + pageSize ∨
        dirtyData.length < markedBefore bitmap page * pageSize + pageSize) → mem[i]? =
        if (first ≤ i / pageSize ∧ i / pageSize < first + (count + 1)) ∧
            HasPage bitmap dirtyData mem.length (i / pageSize)
        then pageByte bitmap dirtyData i else mem[i]? := by
      rintro page rfl hbreak
      rw [if_neg]
      rintro ⟨⟨hle, -⟩, hpage⟩
      exact not_hasPage_of_break hle hbreak hpage
    rw [List.range'_succ, applyPages]
    split
    · exact hstop first rfl (.inl ‹_›)
    · have hrank := markedBefore_succ bitmap first
      split
      · rename_i hdirty
        dsimp only
        split
        · exact hstop first rfl (.inr ‹_›)
        · rename_i hfits
          have hsize := pageSize_pos
          rw [if_pos hdirty] at hrank
          have hslice : ((dirtyData.drop (markedBefore bitmap first * pageSize)).take pageSize).length = pageSize := by
            rw [List.length_take, List.length_drop]
            omega
          have hlen := copyFromSlice_length mem (first * pageSize) _ (by rw [hslice]; omega)
          have hoffset : markedBefore bitmap first * pageSize + pageSize = markedBefore bitmap (first + 1) * pageSize := by
            rw [hrank, Nat.succ_mul]
          rw [hoffset, ih, hlen, copyFromSlice_getElem? _ _ _ _ (by rw [hslice]; omega), hslice]
          have hiff : first * pageSize ≤ i ∧ i < first * pageSize + pageSize ↔ i / pageSize = first := by
            simp only [pageSize]
            omega
          by_cases hi : i / pageSize = first
          · have hcopied : HasPage bitmap dirtyData mem.length first := ⟨hdirty, by omega, by omega⟩
            have hmod : i - first * pageSize = i % pageSize := by
              rw [← hi, Nat.mod_eq_sub_div_mul]
            rw [if_neg (by omega), if_pos (hiff.mpr hi), if_pos ⟨by omega, hi ▸ hcopied⟩, pageByte, hi, hmod,
              List.getElem?_take_of_lt (Nat.mod_lt _ hsize), List.getElem?_drop]
          · rw [if_neg (mt hiff.mp hi)]
            exact if_congr (by constructor <;> rintro ⟨hrange, hpage⟩ <;> exact ⟨by omega, hpage⟩) rfl rfl
      · rename_i hclean
        rw [if_neg hclean] at hrank
        rw [show markedBefore bitmap first = markedBefore bitmap (first + 1) from hrank.symm, ih]
        refine if_congr ?_ rfl rfl
        constructor
        · rintro ⟨hrange, hpage⟩
          exact ⟨by omega, hpage⟩
        · rintro ⟨hrange, hpage⟩
          have hne : i / pageSize ≠ first := fun heq => hclean (heq ▸ hpage.1)
          exact ⟨by omega, hpage⟩

end ApplyPages

theorem applyDiff_byte (mem : List UInt8) (diff : IncrementalSnapshot) (i : Nat) :
    (applyDiff mem diff)[i]? = (diff.byte? mem.length i).or mem[i]? := by
  have hspec := @applyPages_spec diff.dirtyBitmap diff.dirtyPages 0 (diff.memorySize / pageSize) mem i
  rw [show markedBefore diff.dirtyBitmap 0 * pageSize = 0 from Nat.zero_mul _, ← List.range_eq_range'] at hspec
  rw [applyDiff, hspec, IncrementalSnapshot.byte?]
  by_cases hpage : i / pageSize < diff.memorySize / pageSize ∧
      HasPage diff.dirtyBitmap diff.dirtyPages mem.length (i / pageSize)
  · have hmod := Nat.mod_lt i pageSize_pos
    have hlt : markedBefore diff.dirtyBitmap (i / pageSize) * pageSize + i % pageSize < diff.dirtyPages.length :=
      Nat.lt_of_lt_of_le (Nat.add_lt_add_left hmod _) hpage.2.2.2
    rw [if_pos ⟨⟨Nat.zero_le _, by omega⟩, hpage.2⟩, if_pos hpage, pageByte, List.getElem?_eq_getElem hlt]
    rfl
  · rw [if_neg, if_neg hpage]
    · rfl
    · rintro ⟨⟨-, hlt⟩, hhas⟩
      exact hpage ⟨by omega, hhas⟩

theorem overlay_cons (rootMem : List UInt8) (diff : IncrementalSnapshot) (diffs : List IncrementalSnapshot) (i : Nat) :
    overlay rootMem (diff :: diffs) i = overlay (applyDiff rootMem diff) diffs i := by
  rw [overlay, overlay, List.foldl_cons, applyDiff_byte, applyDiff_length]

section JoinText

variable {name : String}

theorem comps_append_slash (base : List Char) (hslash : '/' ∉ name.toList) (hne : name ≠ "") (hdot : name ≠ ".") :
    (((base ++ '/' :: name.toList).splitOn '/').map String.ofList).filter (fun c => c != "" && c != ".") =
      ((base.splitOn '/').map String.ofList).filter (fun c => c != "" && c != ".") ++ [name] := by
  rw [List.splitOn_append_cons_self, List.splitOn_eq_singleton hslash, List.map_append, List.filter_append]
  simp [hne, hdot]

theorem comps_snoc_slash (base : List Char) :
    (((base ++ ['/']).splitOn '/').map String.ofList).filter (fun c => c != "" && c != ".") =
      ((base.splitOn '/').map String.ofList).filter (fun c => c != "" && c != ".") := by
  rw [List.splitOn_append_cons_self, List.map_append, List.filter_append]
  simp

theorem parse_joinText (base : String) (hslash : '/' ∉ name.toList) (hne : name ≠ "") (hdot : name ≠ ".") :
    Path.parse (Host.joinText base name) = (Path.parse base).child name := by
  have hhead : name.toList.head? ≠ some '/' := fun h => hslash (List.mem_of_mem_head? h)
  rw [Host.joinText, if_neg hhead]
  rcases List.eq_nil_or_concat base.toList with hbase | ⟨init, last, hbase⟩
  · have hbase' : base = "" := String.toList_eq_nil_iff.mp hbase
    subst hbase'
    simp only [Path.parse, Path.child, Lib.Path.mk.injEq]
    constructor
    · simpa using hhead
    · simp [List.splitOn_eq_singleton hslash, hne, hdot]
  · rw [List.concat_eq_append] at hbase
    have habs : ∀ rest, (base.toList ++ rest).head? = base.toList.head? := by
      intro rest
      rw [hbase]
      cases init <;> rfl
    by_cases hlast : last = '/'
    · subst hlast
      rw [if_pos (by simp [hbase])]
      simp only [Path.parse, Path.child, Lib.Path.mk.injEq, String.toList_append, habs, true_and]
      rw [hbase, List.append_assoc, List.singleton_append, comps_append_slash init hslash hne hdot, comps_snoc_slash]
    · rw [if_neg (by simp [hbase, hlast])]
      simp only [Path.parse, Path.child, Lib.Path.mk.injEq, String.toList_append, List.append_assoc, habs, true_and]
      exact comps_append_slash base.toList hslash hne hdot

end JoinText

/-- `tree'` has what `tree` has, and no new file of the name `incremental.json`. -/
structure Grows (tree tree' : ByteTree) : Prop where
  ext : tree.Extends tree'
  files : OnlyNewAt (fun place => ∀ dir, place ≠ dir ++ ["incremental.json"]) tree tree'

section Loads

variable {host : SnapshotHost} {tree tree' tree'' : ByteTree} {dir : String}

theorem loadTemplate_eq_ok {full : TemplateSnapshot} : host.loadTemplate tree dir = .ok full ↔
    ∃ data, tree.readToString host.cwd (templateFile dir) = some data ∧ host.parseTemplate data = some full ∧
      tree.pathExists host.cwd (Path.parse full.memoryFile) = true := by
  unfold SnapshotHost.loadTemplate
  cases tree.readToString host.cwd (templateFile dir) with
  | none => simp
  | some data =>
    dsimp only
    cases hparse : host.parseTemplate data with
    | none => simp [hparse]
    | some full' =>
      dsimp only
      constructor
      · intro hload
        split at hload
        · cases hload
          exact ⟨data, rfl, hparse, ‹_›⟩
        · cases hload
      · rintro ⟨data', hdata, hparse', hexists⟩
        cases hdata
        rw [hparse, Option.some_inj] at hparse'
        rw [hparse', if_pos hexists]

theorem loadIncremental_eq_ok {inc : IncrementalFile} : host.loadIncremental tree dir = .ok inc ↔
    ∃ data, tree.readToString host.cwd (incrementalFile dir) = some data ∧ host.parseIncremental data = some inc := by
  unfold SnapshotHost.loadIncremental
  cases tree.readToString host.cwd (incrementalFile dir) with
  | none => simp
  | some data =>
    cases hparse : host.parseIncremental data with
    | none => simp [hparse]
    | some inc' => simp [hparse]

theorem chainHost_loadIncremental :
    host.chainHost.loadIncremental tree dir =
      (host.loadIncremental tree dir).toOption.map IncrementalFile.toIncrementalMeta := by
  unfold Host.loadIncremental SnapshotHost.loadIncremental
  change (tree.readToString host.cwd (incrementalFile dir)).bind _ = _
  cases tree.readToString host.cwd (incrementalFile dir) with
  | none => rfl
  | some data =>
    change (host.parseIncremental data).map _ = _
    dsimp only
    cases host.parseIncremental data with
    | none => rfl
    | some inc => rfl

theorem chainHost_loadTemplate :
    host.chainHost.loadTemplate tree dir =
      (host.loadTemplate tree dir).toOption.map TemplateSnapshot.toTemplateMeta := by
  unfold Host.loadTemplate SnapshotHost.loadTemplate SnapshotHost.chainHost
  dsimp only
  cases tree.readToString host.cwd (templateFile dir) with
  | none => rfl
  | some data =>
    dsimp only
    cases host.parseTemplate data with
    | none => rfl
    | some full =>
      change (if tree.pathExists host.cwd (Path.parse full.memoryFile) = true then _ else _) = _
      dsimp only
      split <;> rfl

theorem rootMemory_eq_ok {mem : List UInt8} : host.rootMemory tree dir = .ok mem ↔
    ∃ full, host.loadTemplate tree dir = .ok full ∧
      tree.readToString host.cwd (Path.parse full.memoryFile) = some mem := by
  rw [SnapshotHost.rootMemory, exceptBind_eq_ok]
  refine exists_congr fun full => and_congr_right fun _ => ?_
  cases tree.readToString host.cwd (Path.parse full.memoryFile) with
  | none => simp
  | some data => simp

theorem loadDiff_eq_ok {diff : IncrementalSnapshot} : host.loadDiff tree dir = .ok diff ↔
    ∃ inc data, host.loadIncremental tree dir = .ok inc ∧
      tree.readToString host.cwd (Path.parse inc.dirtyPagesFile) = some data ∧ inc.withPages data = diff := by
  rw [SnapshotHost.loadDiff, exceptBind_eq_ok]
  refine exists_congr fun inc => ?_
  cases tree.readToString host.cwd (Path.parse inc.dirtyPagesFile) with
  | none => simp
  | some data => simp

def DiffsOf (host : SnapshotHost) (tree : ByteTree) (nodes : List ChainNode) (diffs : List IncrementalSnapshot) :
    Prop :=
  List.Forall₂ (fun node diff => host.loadDiff tree node.dir = .ok diff) nodes diffs

theorem applyDiffs_eq_ok {mem resolved : List UInt8} {nodes : List ChainNode} :
    host.applyDiffs tree mem nodes = .ok resolved ↔
      ∃ diffs, DiffsOf host tree nodes diffs ∧ diffs.foldl applyDiff mem = resolved := by
  induction nodes generalizing mem with
  | nil => simp [SnapshotHost.applyDiffs, DiffsOf, List.forall₂_nil_left_iff]
  | cons node nodes ih =>
    rw [SnapshotHost.applyDiffs, exceptBind_eq_ok]
    constructor
    · rintro ⟨diff, hdiff, hrest⟩
      obtain ⟨diffs, hdiffs, hmem⟩ := ih.mp hrest
      exact ⟨diff :: diffs, .cons hdiff hdiffs, hmem⟩
    · rintro ⟨_, hdiffs, hmem⟩
      obtain - | @⟨_, diff, _, diffs, hdiff, hdiffs⟩ := hdiffs
      exact ⟨diff, hdiff, ih.mpr ⟨diffs, hdiffs, hmem⟩⟩

theorem overlay_eq (mem : List UInt8) (diffs : List IncrementalSnapshot) (i : Nat) :
    (diffs.foldl applyDiff mem)[i]? = overlay mem diffs i := by
  induction diffs generalizing mem with
  | nil => rfl
  | cons diff diffs ih => rw [List.foldl_cons, ih, overlay_cons]

theorem resolveChain_eq_ok {mem : List UInt8} {states : List VcpuState × DeviceStates} :
    host.resolveChain tree dir = .ok (mem, states) ↔
      ∃ root nodes rootMem diffs, host.walkChain tree dir = .ok (root :: nodes) ∧
        host.rootMemory tree root.dir = .ok rootMem ∧ DiffsOf host tree nodes diffs ∧
        diffs.foldl applyDiff rootMem = mem ∧
        host.leafStates tree ((root :: nodes).getLast (List.cons_ne_nil root nodes)).dir = .ok states := by
  rw [SnapshotHost.resolveChain, exceptBind_eq_ok]
  constructor
  · rintro ⟨chain, hwalk, hrest⟩
    cases chain with
    | nil => cases hrest
    | cons root nodes =>
      obtain ⟨rootMem, hroot, hrest⟩ := exceptBind_eq_ok.mp hrest
      obtain ⟨mem', hdiffs, hrest⟩ := exceptBind_eq_ok.mp hrest
      obtain ⟨states', hstates, hrest⟩ := exceptBind_eq_ok.mp hrest
      obtain ⟨diffs, hloads, hmem⟩ := applyDiffs_eq_ok.mp hdiffs
      cases hrest
      exact ⟨root, nodes, rootMem, diffs, hwalk, hroot, hloads, hmem, hstates⟩
  · rintro ⟨root, nodes, rootMem, diffs, hwalk, hroot, hdiffs, hmem, hstates⟩
    refine ⟨_, hwalk, exceptBind_eq_ok.mpr ⟨rootMem, hroot, exceptBind_eq_ok.mpr ⟨mem, ?_, ?_⟩⟩⟩
    · exact applyDiffs_eq_ok.mpr ⟨diffs, hdiffs, hmem⟩
    · exact exceptBind_eq_ok.mpr ⟨states, hstates, rfl⟩

theorem lookup_of_loadTemplate {full : TemplateSnapshot} (hload : host.loadTemplate tree dir = .ok full) :
    tree.lookup host.cwd (Path.parse dir) = some .dir := by
  obtain ⟨data, hread, -⟩ := loadTemplate_eq_ok.mp hload
  rw [readToString_eq_some, templateFile, FileTree.lookup, Path.child, resolve_append] at hread
  rw [FileTree.lookup]
  split at hread
  · assumption
  · cases hread

namespace Grows

theorem trans (h : Grows tree tree') (h' : Grows tree' tree'') : Grows tree tree'' where
  ext := h.ext.trans h'.ext
  files := by
    intro place content hnode
    rcases h'.files place content hnode with hplace | hold
    · exact .inl hplace
    · exact h.files place content hold

theorem loadTemplate (h : Grows tree tree') {full : TemplateSnapshot} (hload : host.loadTemplate tree dir = .ok full) :
    host.loadTemplate tree' dir = .ok full := by
  obtain ⟨data, hread, hparse, hexists⟩ := loadTemplate_eq_ok.mp hload
  exact loadTemplate_eq_ok.mpr ⟨data, h.ext.readToString hread, hparse, h.ext.pathExists hexists⟩

theorem loadIncremental (h : Grows tree tree') {inc : IncrementalFile}
    (hload : host.loadIncremental tree dir = .ok inc) : host.loadIncremental tree' dir = .ok inc := by
  obtain ⟨data, hread, hparse⟩ := loadIncremental_eq_ok.mp hload
  exact loadIncremental_eq_ok.mpr ⟨data, h.ext.readToString hread, hparse⟩

theorem loadIncremental_eq (h : Grows tree tree') (hdir : tree.lookup host.cwd (Path.parse dir) = some .dir) :
    host.loadIncremental tree' dir = host.loadIncremental tree dir := by
  have hread : tree'.readToString host.cwd (incrementalFile dir) = tree.readToString host.cwd (incrementalFile dir) :=
    (Updates.of_extends h.ext h.files).readToString_child (by decide) hdir fun hplace => hplace _ rfl
  rw [SnapshotHost.loadIncremental, hread]
  rfl

theorem walkFrom (h : Grows tree tree') {left : Nat} {chain nodes : List ChainNode}
    (hwalk : host.chainHost.walkFrom tree left chain dir = .ok nodes) :
    host.chainHost.walkFrom tree' left chain dir = .ok nodes := by
  induction left generalizing chain dir with
  | zero => exact hwalk
  | succ left ih =>
    rw [Host.walkFrom, chainHost_loadIncremental, chainHost_loadTemplate] at hwalk ⊢
    cases hinc : host.loadIncremental tree dir with
    | ok inc =>
      rw [hinc] at hwalk
      rw [h.loadIncremental hinc]
      dsimp only [Except.toOption, Option.map_some] at hwalk ⊢
      split at hwalk
      · cases hwalk
      · rw [if_neg ‹_›]
        exact ih hwalk
    | error message =>
      rw [hinc] at hwalk
      cases hfull : host.loadTemplate tree dir with
      | ok full =>
        rw [hfull] at hwalk
        rw [h.loadIncremental_eq (lookup_of_loadTemplate hfull), hinc, h.loadTemplate hfull]
        dsimp only [Except.toOption, Option.map_some, Option.map_none] at hwalk ⊢
        split at hwalk
        · exact hwalk
        · split at hwalk
          · cases hwalk
          · rw [if_neg ‹_›]
            exact ih hwalk
      | error message =>
        rw [hfull] at hwalk
        cases hwalk

theorem rootMemory (h : Grows tree tree') {mem : List UInt8} (hmem : host.rootMemory tree dir = .ok mem) :
    host.rootMemory tree' dir = .ok mem := by
  obtain ⟨full, hfull, hread⟩ := rootMemory_eq_ok.mp hmem
  exact rootMemory_eq_ok.mpr ⟨full, h.loadTemplate hfull, h.ext.readToString hread⟩

theorem loadDiff (h : Grows tree tree') {diff : IncrementalSnapshot} (hdiff : host.loadDiff tree dir = .ok diff) :
    host.loadDiff tree' dir = .ok diff := by
  obtain ⟨inc, data, hinc, hread, hpages⟩ := loadDiff_eq_ok.mp hdiff
  exact loadDiff_eq_ok.mpr ⟨inc, data, h.loadIncremental hinc, h.ext.readToString hread, hpages⟩

theorem leafStates (h : Grows tree tree') {states : List VcpuState × DeviceStates}
    (hstates : host.leafStates tree dir = .ok states) : host.leafStates tree' dir = .ok states := by
  unfold SnapshotHost.leafStates at hstates ⊢
  cases hinc : host.loadIncremental tree dir with
  | ok inc =>
    rw [hinc] at hstates
    rw [h.loadIncremental hinc]
    exact hstates
  | error message =>
    rw [hinc] at hstates
    obtain ⟨full, hfull, hstates⟩ := exceptBind_eq_ok.mp hstates
    rw [h.loadIncremental_eq (lookup_of_loadTemplate hfull), hinc]
    exact exceptBind_eq_ok.mpr ⟨full, h.loadTemplate hfull, hstates⟩

theorem resolveChain (h : Grows tree tree') {resolved : List UInt8 × List VcpuState × DeviceStates}
    (hresolve : host.resolveChain tree dir = .ok resolved) : host.resolveChain tree' dir = .ok resolved := by
  obtain ⟨root, nodes, rootMem, diffs, hwalk, hroot, hdiffs, hmem, hstates⟩ := resolveChain_eq_ok.mp hresolve
  refine resolveChain_eq_ok.mpr ⟨root, nodes, rootMem, diffs, h.walkFrom hwalk, h.rootMemory hroot, ?_, hmem,
    h.leafStates hstates⟩
  exact hdiffs.imp fun _ _ hdiff => h.loadDiff hdiff

end Grows

end Loads

def FreshDir (host : SnapshotHost) (tree : ByteTree) (dir : String) : Prop :=
  ∀ name rest, tree.node? (target host.cwd (Path.parse dir) ++ name :: rest) = none

def RoundTrips (host : SnapshotHost) : Prop :=
  ∀ snapshot json, host.renderTemplate snapshot = some json → host.parseTemplate json = some snapshot

section Output

variable {host : SnapshotHost} {tree tree' : ByteTree} {dir leafDir outputDir : String}

theorem orError_eq_ok {α : Type} {message : String} {x : Option α} {a : α} :
    SnapshotHost.orError message x = .ok a ↔ x = some a := by
  cases x with
  | none => simp [SnapshotHost.orError]
  | some b => simp [SnapshotHost.orError]

theorem Grows.of_createDirAll {p : Path} (h : tree.createDirAll host.cwd p = some tree') : Grows tree tree' := by
  obtain ⟨hext, -, hfiles⟩ := createDirAll_spec h
  refine ⟨hext, fun place content hnode => ?_⟩
  rcases hfiles place content hnode with hfalse | hold
  · exact hfalse.elim
  · exact .inr hold

theorem Grows.of_writeFile {p : Path} {name : String} {data : List UInt8} (hname : name ≠ "..")
    (hinc : name ≠ "incremental.json") (h : tree.writeFile host.cwd (p.child name) data = some tree')
    (hnew : ∀ content, tree.node? (target host.cwd p ++ [name]) ≠ some (.file content)) : Grows tree tree' := by
  obtain ⟨hext, -, hfiles⟩ := writeFile_child_spec hname h hnew
  refine ⟨hext, fun place content hnode => ?_⟩
  rcases hfiles place content hnode with rfl | hold
  · refine .inl fun dir heq => hinc ?_
    simpa using (List.append_inj' heq rfl).2
  · exact .inr hold

theorem compactChain_eq_ok {snapshot : TemplateSnapshot}
    (h : host.compactChain tree leafDir outputDir = .ok (tree', snapshot)) :
    ∃ mem vcpuStates deviceStates madeTree memTree,
      host.resolveChain tree leafDir = .ok (mem, vcpuStates, deviceStates) ∧
      tree.createDirAll host.cwd (Path.parse outputDir) = some madeTree ∧
      madeTree.writeFile host.cwd ((Path.parse outputDir).child "memory.raw") mem = some memTree ∧
      host.saveMetadata memTree snapshot outputDir = .ok tree' ∧
      snapshot.memoryFile = SnapshotHost.memoryPath outputDir ∧ snapshot.parentTag = none ∧
      snapshot.vcpuStates = vcpuStates ∧ snapshot.deviceStates = deviceStates := by
  obtain ⟨⟨mem, vcpuStates, deviceStates⟩, hresolve, h⟩ := exceptBind_eq_ok.mp h
  obtain ⟨madeTree, hmake, h⟩ := exceptBind_eq_ok.mp h
  obtain ⟨memTree, hmem, h⟩ := exceptBind_eq_ok.mp h
  obtain ⟨chain, -, h⟩ := exceptBind_eq_ok.mp h
  obtain ⟨tree'', hsave, h⟩ := exceptBind_eq_ok.mp h
  cases h
  exact ⟨mem, vcpuStates, deviceStates, madeTree, memTree, hresolve, orError_eq_ok.mp hmake, orError_eq_ok.mp hmem,
    hsave, rfl, rfl, rfl, rfl⟩

theorem walkFrom_of_template {full : TemplateSnapshot} (hinc : ∀ inc, host.loadIncremental tree dir ≠ .ok inc)
    (hfull : host.loadTemplate tree dir = .ok full) (hparent : full.parentTag = none) (left : Nat)
    (chain : List ChainNode) :
    host.chainHost.walkFrom tree (left + 1) chain dir = .ok (full.node dir :: chain) := by
  have hnone : (host.loadIncremental tree dir).toOption = none := by
    cases hload : host.loadIncremental tree dir with
    | ok inc => exact absurd hload (hinc inc)
    | error message => rfl
  rw [Host.walkFrom, chainHost_loadIncremental, chainHost_loadTemplate, hnone, hfull]
  dsimp only [Except.toOption, Option.map_some, Option.map_none]
  rw [hparent]

theorem resolveChain_of_template {full : TemplateSnapshot} {mem : List UInt8} (hinc : ∀ inc,
      host.loadIncremental tree dir ≠ .ok inc)
    (hfull : host.loadTemplate tree dir = .ok full) (hparent : full.parentTag = none)
    (hmem : tree.readToString host.cwd (Path.parse full.memoryFile) = some mem) :
    host.resolveChain tree dir = .ok (mem, full.vcpuStates, full.deviceStates) := by
  have hwalk : host.walkChain tree dir = .ok [full.node dir] := walkFrom_of_template hinc hfull hparent 256 []
  have hstates : host.leafStates tree dir = .ok (full.vcpuStates, full.deviceStates) := by
    rw [SnapshotHost.leafStates]
    cases hload : host.loadIncremental tree dir with
    | ok inc => exact absurd hload (hinc inc)
    | error message => exact exceptBind_eq_ok.mpr ⟨full, hfull, rfl⟩
  exact resolveChain_eq_ok.mpr ⟨full.node dir, [], mem, [], hwalk, rootMemory_eq_ok.mpr ⟨full, hfull, hmem⟩, .nil, rfl,
    hstates⟩

theorem FreshDir.loadIncremental_ne (hfresh : FreshDir host tree dir) (hgrows : Grows tree tree')
    (inc : IncrementalFile) : host.loadIncremental tree' dir ≠ .ok inc := by
  intro hload
  obtain ⟨data, hread, -⟩ := loadIncremental_eq_ok.mp hload
  rw [readToString_eq_some] at hread
  have hnode := resolve_target _ _ _ hread
  have htarget := @target_child host.cwd (Path.parse dir) "incremental.json" (by decide)
  rw [target] at htarget
  rw [incrementalFile, htarget] at hnode
  rcases hgrows.files _ data hnode with hplace | hold
  · exact hplace _ rfl
  · rw [hfresh] at hold
    cases hold

theorem walkFrom_snoc {γ : Type} {host : Host γ} {tree : FileTree γ} {left : Nat} {chain nodes : List ChainNode}
    (h : host.walkFrom tree left chain dir = .ok nodes) :
    ∃ front node, nodes = front ++ node :: chain ∧ node.dir = dir := by
  induction left generalizing chain dir with
  | zero => cases h
  | succ left ih =>
    have hdeeper : ∀ (fields : ChainFields) (parent : String),
        host.walkFrom tree left (fields.node dir :: chain) parent = .ok nodes →
        ∃ front node, nodes = front ++ node :: chain ∧ node.dir = dir := by
      intro fields parent hwalk
      obtain ⟨front, node, hnodes, -⟩ := ih hwalk
      exact ⟨front ++ [node], fields.node dir, by simp [hnodes], rfl⟩
    unfold Host.walkFrom at h
    split at h
    · rename_i inc _
      dsimp only at h
      split at h
      · cases h
      · exact hdeeper inc.toChainFields _ h
    · split at h
      · rename_i full _
        dsimp only at h
        split at h
        · cases h
          exact ⟨[], full.node dir, rfl, rfl⟩
        · split at h
          · cases h
          · exact hdeeper full.toChainFields _ h
      · cases h

theorem walkChain_getLast {root : ChainNode} {nodes : List ChainNode}
    (h : host.walkChain tree leafDir = .ok (root :: nodes)) :
    ((root :: nodes).getLast (List.cons_ne_nil root nodes)).dir = leafDir := by
  obtain ⟨front, node, hnodes, hdir⟩ := walkFrom_snoc h
  simp only [hnodes, List.getLast_append_singleton]
  exact hdir

theorem savedTemplate_loads (hserde : RoundTrips host) (hfresh : FreshDir host tree outputDir)
    {snapshot : TemplateSnapshot} {mem : List UInt8} {madeTree memTree : ByteTree}
    (hmake : tree.createDirAll host.cwd (Path.parse outputDir) = some madeTree)
    (hmem : madeTree.writeFile host.cwd ((Path.parse outputDir).child "memory.raw") mem = some memTree)
    (hsave : host.saveMetadata memTree snapshot outputDir = .ok tree')
    (hfile : snapshot.memoryFile = SnapshotHost.memoryPath outputDir) :
    Grows tree tree' ∧ (∀ inc, host.loadIncremental tree' outputDir ≠ .ok inc) ∧
      host.loadTemplate tree' outputDir = .ok snapshot ∧
      tree'.readToString host.cwd (Path.parse snapshot.memoryFile) = some mem := by
  obtain ⟨dirTree, hdir, hsave⟩ := exceptBind_eq_ok.mp hsave
  obtain ⟨json, hrender, hwrite⟩ := exceptBind_eq_ok.mp hsave
  rw [orError_eq_ok] at hdir hrender hwrite
  have hmade := Grows.of_createDirAll hmake
  obtain ⟨-, -, hmadeFiles⟩ := createDirAll_spec hmake
  have hnomem : ∀ content, madeTree.node? (target host.cwd (Path.parse outputDir) ++ ["memory.raw"]) ≠
      some (.file content) := by
    intro content hnode
    rcases hmadeFiles _ content hnode with hfalse | hold
    · exact hfalse
    · rw [hfresh] at hold
      cases hold
  have hmemGrows := Grows.of_writeFile (by decide) (by decide) hmem hnomem
  obtain ⟨-, hmemLookup, hmemFiles⟩ := writeFile_child_spec (by decide) hmem hnomem
  have hdirGrows := Grows.of_createDirAll hdir
  obtain ⟨-, -, hdirFiles⟩ := createDirAll_spec hdir
  have hnojson : ∀ content, dirTree.node? (target host.cwd (Path.parse outputDir) ++ ["template.json"]) ≠
      some (.file content) := by
    intro content hnode
    rcases hdirFiles _ content hnode with hfalse | hnode
    · exact hfalse
    · rcases hmemFiles _ content hnode with hplace | hnode
      · exact absurd (List.append_cancel_left hplace) (by decide)
      · rcases hmadeFiles _ content hnode with hfalse | hold
        · exact hfalse
        · rw [hfresh] at hold
          cases hold
  have hjsonGrows := Grows.of_writeFile (by decide) (by decide) hwrite hnojson
  obtain ⟨-, hjsonLookup, -⟩ := writeFile_child_spec (by decide) hwrite hnojson
  have hgrows := ((hmade.trans hmemGrows).trans hdirGrows).trans hjsonGrows
  have hread : tree'.readToString host.cwd (Path.parse snapshot.memoryFile) = some mem := by
    rw [hfile, SnapshotHost.memoryPath, parse_joinText outputDir (by decide) (by decide) (by decide)]
    exact (hdirGrows.trans hjsonGrows).ext.readToString (readToString_eq_some.mpr hmemLookup)
  refine ⟨hgrows, hfresh.loadIncremental_ne hgrows, ?_, hread⟩
  refine loadTemplate_eq_ok.mpr ⟨json, readToString_eq_some.mpr hjsonLookup, hserde _ _ hrender, ?_⟩
  exact Option.isSome_iff_exists.mpr ⟨_, readToString_eq_some.mp hread⟩

/-- The output has the meaning of the chain, and so has the leaf afterwards. -/
theorem compactChain_resolves (hserde : RoundTrips host) (hfresh : FreshDir host tree outputDir)
    {snapshot : TemplateSnapshot} (h : host.compactChain tree leafDir outputDir = .ok (tree', snapshot)) :
    ∃ root nodes rootMem diffs mem states,
      host.walkChain tree leafDir = .ok (root :: nodes) ∧ host.rootMemory tree root.dir = .ok rootMem ∧
      DiffsOf host tree nodes diffs ∧ (∀ i, mem[i]? = overlay rootMem diffs i) ∧
      host.leafStates tree leafDir = .ok states ∧
      host.resolveChain tree leafDir = .ok (mem, states) ∧
      host.resolveChain tree' outputDir = .ok (mem, states) ∧
      host.resolveChain tree' leafDir = .ok (mem, states) := by
  obtain ⟨mem, vcpuStates, deviceStates, madeTree, memTree, hresolve, hmake, hmem, hsave, hfile, hparent, rfl, rfl⟩ :=
    compactChain_eq_ok h
  obtain ⟨root, nodes, rootMem, diffs, hwalk, hroot, hdiffs, hfold, hstates⟩ := resolveChain_eq_ok.mp hresolve
  obtain ⟨hgrows, hinc, hload, hread⟩ := savedTemplate_loads hserde hfresh hmake hmem hsave hfile
  refine ⟨root, nodes, rootMem, diffs, mem, _, hwalk, hroot, hdiffs, ?_, ?_, hresolve, ?_, hgrows.resolveChain hresolve⟩
  · intro i
    rw [← hfold, overlay_eq]
  · rwa [walkChain_getLast hwalk] at hstates
  · exact resolveChain_of_template hinc hload hparent hread

end Output

def asciiBytes (text : String) : List UInt8 := text.toList.map fun c => c.toNat.toUInt8

theorem asciiBytes_append (a b : String) : asciiBytes (a ++ b) = asciiBytes a ++ asciiBytes b := by
  rw [asciiBytes, String.toList_append, List.map_append]
  rfl

def pageOf (byte : UInt8) : List UInt8 := readBytes (fun _ => byte) 0 4096

theorem pageOf_length (byte : UInt8) : (pageOf byte).length = pageSize := readBytes_length _ _ _

theorem pageOf_inj {b b' : UInt8} (h : pageOf b = pageOf b') : b = b' := by
  have hb : (pageOf b)[0]? = some b := readBytes_getElem? _ _ _ _ (by decide)
  rw [h, pageOf, readBytes_getElem? _ _ _ _ (by decide)] at hb
  exact (Option.some.inj hb).symm

def blankPage : List UInt8 := pageOf 0

def dirtyPage : List UInt8 := pageOf 7

theorem dirtyPage_length : dirtyPage.length = pageSize := pageOf_length 7

def blankPageHash : List UInt8 :=
  [173, 127, 172, 178, 88, 111, 198, 233, 102, 192, 4, 215, 209, 209, 107, 2, 79, 88, 5, 255, 124, 180, 124, 122, 133,
    218, 189, 139, 72, 137, 44, 167]

def dirtyPageHash : List UInt8 :=
  [201, 172, 123, 6, 36, 130, 79, 132, 79, 108, 127, 61, 80, 250, 185, 116, 26, 137, 20, 232, 120, 70, 126, 141, 170,
    237, 202, 20, 58, 52, 217, 11]

def onePageTemplate (memoryFile : String) (hash : List UInt8) : TemplateSnapshot :=
  { memoryFile, vcpuStates := [], deviceStates := {}, memorySize := 4096, runtimeType := "bare",
    memoryHash := hashHex hash, blockDevice := none, clockNs := 0, overlayPath := none, guestIp := none, tag := none,
    parentTag := none, chainDepth := 0, snapshotType := "full" }

def onePageJson (memoryFile hash : String) : List UInt8 := asciiBytes
  ("\x7b\n  \"memory_file\": \"" ++ memoryFile ++ "\",\n  \"vcpu_states\": [],\n  \"device_states\": \x7b\n" ++
    "    \"serial\": null,\n    \"virtio_configs\": \x7b\x7d,\n    \"transports\": [],\n    \"irqchip\": [],\n" ++
    "    \"pit\": []\n  \x7d,\n  \"memory_size\": 4096,\n  \"runtime_type\": \"bare\",\n" ++
    "  \"memory_hash\": \"" ++ hash ++ "\",\n  \"block_device\": null,\n  \"clock_ns\": 0,\n" ++
    "  \"overlay_path\": null,\n  \"guest_ip\": null,\n  \"tag\": null,\n  \"parent_tag\": null,\n" ++
    "  \"chain_depth\": 0,\n  \"snapshot_type\": \"full\"\n\x7d")

def blankTemplate : TemplateSnapshot := onePageTemplate "/snap/root/memory.raw" blankPageHash

def blankJson : List UInt8 :=
  onePageJson "/snap/root/memory.raw" "ad7facb2586fc6e966c004d7d1d16b024f5805ff7cb47c7a85dabd8b48892ca7"

def compactedTemplate : TemplateSnapshot := onePageTemplate "/out/memory.raw" dirtyPageHash

def compactedJson : List UInt8 :=
  onePageJson "/out/memory.raw" "c9ac7b0624824f844f6c7f3d50fab9741a8914e878467e8daaedca143a34d90b"

-- The paths differ, which two bytes show; comparing the whole texts takes the kernel long.
theorem blankJson_ne_compactedJson : blankJson ≠ compactedJson := by
  have hsnap : (asciiBytes "/snap/root/memory.raw")[1]? = some 115 := by decide
  have hout : (asciiBytes "/out/memory.raw")[1]? = some 111 := by decide
  intro h
  simp only [blankJson, compactedJson, onePageJson, asciiBytes_append, List.append_assoc] at h
  have hbyte := congrArg (·[1]?) (List.append_cancel_left h)
  rw [List.getElem?_append_left (by decide), List.getElem?_append_left (by decide), hsnap, hout] at hbyte
  cases hbyte

def onRoot (word : UInt8) : IncrementalFile :=
  { baseTemplate := "/snap/root", dirtyBitmap := [word, 0, 0, 0, 0, 0, 0, 0],
    dirtyPagesFile := "/snap/inc1/dirty_pages.raw", vcpuStates := [], deviceStates := {}, memorySize := 4096,
    tag := none, parentTag := none, chainDepth := 0, snapshotType := "incremental" }

def onRootJson (word : String) : List UInt8 := asciiBytes
  ("\x7b\n  \"base_template\": \"/snap/root\",\n  \"dirty_bitmap\": [\n    " ++ word ++ ",\n    0,\n    0,\n" ++
    "    0,\n    0,\n    0,\n    0,\n    0\n  ],\n  \"dirty_pages_file\": \"/snap/inc1/dirty_pages.raw\",\n" ++
    "  \"vcpu_states\": [],\n  \"device_states\": \x7b\n    \"serial\": null,\n    \"virtio_configs\": \x7b\x7d,\n" ++
    "    \"transports\": [],\n    \"irqchip\": [],\n    \"pit\": []\n  \x7d,\n  \"memory_size\": 4096,\n" ++
    "  \"tag\": null,\n  \"parent_tag\": null,\n  \"chain_depth\": 0,\n  \"snapshot_type\": \"incremental\"\n\x7d")

theorem onRootJson_ne : onRootJson "0" ≠ onRootJson "1" := by
  intro h
  simp only [onRootJson, asciiBytes_append, List.append_assoc] at h
  have hword := congrArg (·[0]?) (List.append_cancel_left h)
  exact absurd hword (by decide)

def dirtyFile : IncrementalFile := onRoot 1

def dirtyJson : List UInt8 := onRootJson "1"

def onePageHost : SnapshotHost where
  cwd := []
  parseTemplate data :=
    if data = compactedJson then some compactedTemplate
    else if data = blankJson then some blankTemplate else none
  parseIncremental data :=
    if data = onRootJson "0" then some (onRoot 0) else if data = dirtyJson then some dirtyFile else none
  renderTemplate snapshot :=
    if snapshot = compactedTemplate then some compactedJson
    else if snapshot = blankTemplate then some blankJson else none
  sha256 data := if data = blankPage then blankPageHash else if data = dirtyPage then dirtyPageHash else []

def emptyTree : ByteTree := ⟨[([], .dir)]⟩

def rootDirTree : ByteTree := (emptyTree.setNode ["snap"] .dir).setNode ["snap", "root"] .dir

def rootMemTree : ByteTree := rootDirTree.setNode ["snap", "root", "memory.raw"] (.file blankPage)

def rootTree : ByteTree := rootMemTree.setNode ["snap", "root", "template.json"] (.file blankJson)

def incDirTree : ByteTree := rootTree.setNode ["snap", "inc1"] .dir

def dirtyPagesTree : ByteTree := incDirTree.setNode ["snap", "inc1", "dirty_pages.raw"] (.file dirtyPage)

def onePageTree : ByteTree := dirtyPagesTree.setNode ["snap", "inc1", "incremental.json"] (.file dirtyJson)

theorem onePageHost_roundTrips : RoundTrips onePageHost := by
  intro snapshot json hrender
  simp only [onePageHost] at hrender ⊢
  split at hrender
  · obtain rfl := Option.some.inj hrender
    rw [if_pos rfl]
    exact congrArg some (Eq.symm ‹_›)
  · split at hrender
    · obtain rfl := Option.some.inj hrender
      rw [if_neg blankJson_ne_compactedJson, if_pos rfl]
      exact congrArg some (Eq.symm ‹_›)
    · cases hrender

theorem onePageTree_fresh : FreshDir onePageHost onePageTree "/out" := by
  intro name rest
  have htarget : target onePageHost.cwd (Path.parse "/out") = ["out"] := by decide
  rw [htarget]
  rfl

theorem onePage_root : onePageHost.loadTemplate onePageTree "/snap/root" = .ok blankTemplate := by
  have hread : onePageTree.readToString onePageHost.cwd (templateFile "/snap/root") = some blankJson := rfl
  have hparse : onePageHost.parseTemplate blankJson = some blankTemplate := by
    simp only [onePageHost, if_neg blankJson_ne_compactedJson, if_true]
  have hmemory : onePageTree.readToString onePageHost.cwd (Path.parse "/snap/root/memory.raw") = some blankPage := rfl
  refine loadTemplate_eq_ok.mpr ⟨blankJson, hread, hparse, ?_⟩
  exact Option.isSome_iff_exists.mpr ⟨_, readToString_eq_some.mp hmemory⟩

theorem onePageHost_dirty : onePageHost.parseIncremental dirtyJson = some dirtyFile := by
  simp only [onePageHost, dirtyJson, if_neg onRootJson_ne.symm, if_true]

theorem onePage_incremental : onePageHost.loadIncremental onePageTree "/snap/inc1" = .ok dirtyFile :=
  loadIncremental_eq_ok.mpr ⟨dirtyJson, rfl, onePageHost_dirty⟩

theorem applyDiff_dirtyFile {mem page : List UInt8} (hmem : mem.length = pageSize) (hpage : page.length = pageSize) :
    applyDiff mem (dirtyFile.withPages page) = page := by
  have hpages : List.range (4096 / pageSize) = [0] := by decide
  have htake : page.take pageSize = page := List.take_of_length_le (Nat.le_of_eq hpage)
  change applyPages [1, 0, 0, 0, 0, 0, 0, 0] page (List.range (4096 / pageSize)) mem 0 = page
  rw [hpages, applyPages, if_neg (by decide), if_pos (by decide)]
  change (if mem.length < 0 * pageSize + pageSize ∨ page.length < 0 + pageSize then mem else _) = page
  rw [if_neg (by omega)]
  change copyFromSlice mem (0 * pageSize) ((page.drop 0).take pageSize) = page
  rw [List.drop_zero, htake, copyFromSlice, Nat.zero_mul, List.take_zero, Nat.zero_add, hpage,
    List.drop_of_length_le (Nat.le_of_eq hmem), List.nil_append, List.append_nil]

theorem onePage_walk : onePageHost.walkChain onePageTree "/snap/inc1" =
    .ok [blankTemplate.node "/snap/root", dirtyFile.node "/snap/inc1"] := by
  have hnone : onePageHost.loadIncremental onePageTree "/snap/root" =
      .error ("Failed to read incremental metadata: " ++ Host.joinText "/snap/root" "incremental.json") := rfl
  rw [SnapshotHost.walkChain, Host.walkChain, Host.walkFrom, chainHost_loadIncremental, onePage_incremental]
  dsimp only [Except.toOption, Option.map_some]
  rw [if_neg (by decide), show Host.parentOf dirtyFile.toIncrementalMeta = "/snap/root" from rfl, Host.walkFrom,
    chainHost_loadIncremental, chainHost_loadTemplate, hnone, onePage_root]
  rfl

theorem onePage_resolve : onePageHost.resolveChain onePageTree "/snap/inc1" = .ok (dirtyPage, [], {}) := by
  have hroot : onePageHost.rootMemory onePageTree "/snap/root" = .ok blankPage :=
    rootMemory_eq_ok.mpr ⟨_, onePage_root, rfl⟩
  have hdiff : onePageHost.loadDiff onePageTree "/snap/inc1" = .ok (dirtyFile.withPages dirtyPage) :=
    loadDiff_eq_ok.mpr ⟨dirtyFile, dirtyPage, onePage_incremental, rfl, rfl⟩
  have hstates : onePageHost.leafStates onePageTree "/snap/inc1" = .ok ([], {}) := by
    rw [SnapshotHost.leafStates, onePage_incremental]
    rfl
  refine resolveChain_eq_ok.mpr ⟨_, _, _, [dirtyFile.withPages dirtyPage], onePage_walk, hroot, ?_, ?_, hstates⟩
  · exact .cons hdiff .nil
  · have hmem : blankPage.length = pageSize := pageOf_length 0
    rw [List.foldl_cons, List.foldl_nil, applyDiff_dirtyFile hmem dirtyPage_length]

def onePageMemTree : ByteTree :=
  (onePageTree.setNode ["out"] .dir).setNode ["out", "memory.raw"] (.file dirtyPage)

theorem onePageTree_grows : Grows onePageTree onePageMemTree := by
  have hdir : Grows onePageTree (onePageTree.setNode ["out"] .dir) :=
    @Grows.of_createDirAll onePageHost _ _ (Path.parse "/out") rfl
  refine hdir.trans (@Grows.of_writeFile onePageHost _ _ (Path.parse "/out") "memory.raw" dirtyPage ?_ ?_ rfl ?_)
  · decide
  · decide
  · intro content hnode
    cases hnode

def onePageOutTree : ByteTree := onePageMemTree.setNode ["out", "template.json"] (.file compactedJson)

theorem onePageHost_sha256 : onePageHost.sha256 dirtyPage = dirtyPageHash := by
  have hne : dirtyPage ≠ blankPage := fun h => absurd (pageOf_inj h) (by decide)
  simp only [onePageHost, if_neg hne, if_true]

theorem onePage_compact :
    onePageHost.compactChain onePageTree "/snap/inc1" "/out" = .ok (onePageOutTree, compactedTemplate) := by
  have hwalk : onePageHost.walkChain onePageMemTree "/snap/inc1" =
      .ok [blankTemplate.node "/snap/root", dirtyFile.node "/snap/inc1"] := onePageTree_grows.walkFrom onePage_walk
  have hmeta : onePageHost.rootMeta onePageMemTree [blankTemplate.node "/snap/root", dirtyFile.node "/snap/inc1"] =
      ⟨"bare", none, 0, none, none⟩ := by
    rw [SnapshotHost.rootMeta, show (blankTemplate.node "/snap/root").dir = "/snap/root" from rfl,
      onePageTree_grows.loadTemplate onePage_root]
    rfl
  have hpath : SnapshotHost.memoryPath "/out" = "/out/memory.raw" := by decide
  have hrender : onePageHost.renderTemplate compactedTemplate = some compactedJson := by
    simp only [onePageHost, if_true]
  refine exceptBind_eq_ok.mpr ⟨_, onePage_resolve, ?_⟩
  refine exceptBind_eq_ok.mpr ⟨_, orError_eq_ok.mpr rfl, ?_⟩
  refine exceptBind_eq_ok.mpr ⟨onePageMemTree, orError_eq_ok.mpr rfl, ?_⟩
  refine exceptBind_eq_ok.mpr ⟨_, hwalk, ?_⟩
  dsimp only
  rw [hmeta, hpath, onePageHost_sha256, dirtyPage_length]
  change (onePageHost.saveMetadata onePageMemTree compactedTemplate "/out" >>= _) = _
  refine exceptBind_eq_ok.mpr ⟨onePageOutTree, ?_, rfl⟩
  refine exceptBind_eq_ok.mpr ⟨onePageMemTree, orError_eq_ok.mpr rfl, ?_⟩
  exact exceptBind_eq_ok.mpr ⟨compactedJson, orError_eq_ok.mpr hrender, orError_eq_ok.mpr rfl⟩

theorem compactChain_resolves_onePage : ∃ tree', onePageHost.compactChain onePageTree "/snap/inc1" "/out" =
      .ok (tree', compactedTemplate) ∧ onePageHost.resolveChain tree' "/out" = .ok (dirtyPage, [], {}) := by
  obtain ⟨_, _, _, _, mem, states, -, -, -, -, -, hleaf, hout, -⟩ :=
    compactChain_resolves onePageHost_roundTrips onePageTree_fresh onePage_compact
  rw [onePage_resolve] at hleaf
  exact ⟨onePageOutTree, onePage_compact, hout.trans hleaf.symm⟩

end CloneVmm.Boot
