import CloneVmm.Boot.Chain

namespace CloneVmm.Boot

open CloneVmm.Lib FileTree

variable {host : Host} {tree : FileTree} {P : List String → Bool}

theorem lookup_without (tree : FileTree) (P : List String → Bool) (cwd : List String) (p : Path) :
    (tree.without P).lookup cwd p = if (pathPlaces cwd p).any P then none else tree.lookup cwd p :=
  resolve_without tree P _ _

theorem pathExists_without (tree : FileTree) (P : List String → Bool) (cwd : List String) (p : Path) :
    (tree.without P).pathExists cwd p = (!(pathPlaces cwd p).any P && tree.pathExists cwd p) := by
  rw [pathExists, pathExists, lookup_without]
  cases (pathPlaces cwd p).any P <;> simp

theorem readToString_without (tree : FileTree) (P : List String → Bool) (cwd : List String) (p : Path) :
    (tree.without P).readToString cwd p =
      if (pathPlaces cwd p).any P then none else tree.readToString cwd p := by
  rw [readToString, readToString, lookup_without]
  cases (pathPlaces cwd p).any P <;> simp

theorem pathPlaces_child (cwd : List String) (p : Path) (name : String) :
    pathPlaces cwd (p.child name) = pathPlaces cwd p ++ [advance (target cwd p) name] :=
  places_append _ _ _

def FileClosed (tree : FileTree) (P : List String → Bool) : Prop :=
  ∀ place content, tree.node? place = some (.file content) → P place = true → P place.dropLast = true

theorem FileClosed.any_dir (h : FileClosed tree P) {cwd : List String} {p : Path} {name content : String}
    (hname : name ≠ "..") (hread : tree.readToString cwd (p.child name) = some content)
    (hany : (pathPlaces cwd (p.child name)).any P = true) : (pathPlaces cwd p).any P = true := by
  rw [pathPlaces_child, List.any_append, Bool.or_eq_true] at hany
  rcases hany with hdir | hfile
  · exact hdir
  · rw [List.any_cons, List.any_nil, Bool.or_false, advance, if_neg hname] at hfile
    have hnode : tree.node? (target cwd p ++ [name]) = some (.file content) := by
      unfold readToString at hread
      split at hread
      · rename_i content' hlookup
        cases hread
        have htarget := resolve_target tree _ _ hlookup
        rw [Path.child, List.foldl_append] at htarget
        simp only [List.foldl_cons, List.foldl_nil, advance, if_neg hname] at htarget
        exact htarget
      · cases hread
    have hparent := h _ _ hnode hfile
    rw [List.dropLast_concat] at hparent
    exact List.any_eq_true.mpr ⟨_, target_mem_places _ _, hparent⟩

theorem any_child_of_dir {cwd : List String} {p : Path} (name : String)
    (h : (pathPlaces cwd p).any P = true) : (pathPlaces cwd (p.child name)).any P = true := by
  rw [pathPlaces_child, List.any_append, h, Bool.true_or]

theorem loadIncremental_without (host : Host) (tree : FileTree) (P : List String → Bool) (dir : String) :
    host.loadIncremental (tree.without P) dir =
      if (pathPlaces host.cwd (incrementalFile dir)).any P then none else host.loadIncremental tree dir := by
  rw [Host.loadIncremental, Host.loadIncremental, readToString_without]
  cases (pathPlaces host.cwd (incrementalFile dir)).any P <;> simp

theorem incremental_read {dir : String} {inc : IncrementalMeta} (h : host.loadIncremental tree dir = some inc) :
    ∃ text, tree.readToString host.cwd (incrementalFile dir) = some text := by
  obtain ⟨text, htext, -⟩ := Option.bind_eq_some_iff.mp h
  exact ⟨text, htext⟩

theorem loadTemplate_hit {dir : String} (h : (pathPlaces host.cwd (templateFile dir)).any P = true) :
    host.loadTemplate (tree.without P) dir = none := by
  rw [Host.loadTemplate, readToString_without, if_pos h]

theorem loadTemplate_without {dir : String} {full : TemplateMeta} (hload : host.loadTemplate tree dir = some full) :
    host.loadTemplate (tree.without P) dir =
      if (pathPlaces host.cwd (templateFile dir) ++ pathPlaces host.cwd (Path.parse full.memoryFile)).any P then none
      else some full := by
  unfold Host.loadTemplate at hload ⊢
  rw [readToString_without, List.any_append]
  cases htext : tree.readToString host.cwd (templateFile dir) with
  | none =>
    rw [htext] at hload
    cases hload
  | some text =>
    rw [htext] at hload
    dsimp only at hload
    cases hparse : host.parseTemplate text with
    | none =>
      rw [hparse] at hload
      cases hload
    | some full' =>
      rw [hparse] at hload
      dsimp only at hload
      split at hload
      · rename_i hexists
        cases hload
        cases (pathPlaces host.cwd (templateFile dir)).any P with
        | true => rfl
        | false =>
          simp only [Bool.false_or, if_neg Bool.false_ne_true, hparse, pathExists_without, hexists, Bool.and_true]
          cases (pathPlaces host.cwd (Path.parse full.memoryFile)).any P <;> rfl
      · cases hload

def walkPlaces (host : Host) (tree : FileTree) : Nat → String → List (List String)
  | 0, _ => []
  | left + 1, dir =>
    match host.loadIncremental tree dir with
    | some inc => pathPlaces host.cwd (incrementalFile dir) ++ walkPlaces host tree left (Host.parentOf inc)
    | none =>
      match host.loadTemplate tree dir with
      | some full =>
        pathPlaces host.cwd (templateFile dir) ++ pathPlaces host.cwd (Path.parse full.memoryFile) ++
          match full.parentTag with
          | none => []
          | some parent => walkPlaces host tree left parent
      | none => []

theorem walkFrom_without_iff (hP : FileClosed tree P) (left : Nat) (chain result : List ChainNode) (dir : String)
    (h : host.walkFrom tree left chain dir = .ok result) :
    host.walkFrom (tree.without P) left chain dir = .ok result ↔ (walkPlaces host tree left dir).any P = false := by
  induction left generalizing chain dir with
  | zero => cases h
  | succ left ih =>
    unfold Host.walkFrom walkPlaces
    unfold Host.walkFrom at h
    rw [loadIncremental_without]
    cases hinc : host.loadIncremental tree dir with
    | some inc =>
      simp only [hinc] at h ⊢
      rw [List.any_append, Bool.or_eq_false_iff]
      split at h
      · cases h
      · rename_i hshort
        cases hany : (pathPlaces host.cwd (incrementalFile dir)).any P with
        | false =>
          simp only [if_neg Bool.false_ne_true, if_neg hshort, true_and]
          exact ih _ _ h
        | true =>
          -- Neither file of the directory can be read any more.
          obtain ⟨text, htext⟩ := incremental_read hinc
          have hdir := hP.any_dir (by decide) htext hany
          have hgone : host.loadTemplate (tree.without P) dir = none := loadTemplate_hit (any_child_of_dir _ hdir)
          simp [hgone]
    | none =>
      simp only [hinc, ite_self] at h ⊢
      cases hfull : host.loadTemplate tree dir with
      | none =>
        rw [hfull] at h
        cases h
      | some full =>
        have hload := loadTemplate_without (P := P) hfull
        simp only [hfull] at h ⊢
        generalize pathPlaces host.cwd (templateFile dir) ++
          pathPlaces host.cwd (Path.parse full.memoryFile) = files at hload ⊢
        rw [hload, List.any_append, Bool.or_eq_false_iff]
        cases hany : files.any P with
        | true => simp
        | false =>
          simp only [if_neg Bool.false_ne_true, true_and]
          cases hparent : full.parentTag with
          | none =>
            simp only [hparent] at h
            simp [h]
          | some parent =>
            simp only [hparent] at h
            dsimp only
            split at h
            · cases h
            · rename_i hshort
              rw [if_neg hshort]
              exact ih _ _ h

def under (dir names place : List String) : Bool := names.any fun name => (dir ++ [name]).isPrefixOf place

theorem under_append (dir names names' place : List String) :
    under dir (names ++ names') place = (under dir names place || under dir names' place) :=
  List.any_append

theorem any_under_append (dir names names' : List String) (places : List (List String)) :
    places.any (under dir (names ++ names')) = (places.any (under dir names) || places.any (under dir names')) := by
  induction places with
  | nil => rfl
  | cons place places ih =>
    rw [List.any_cons, List.any_cons, List.any_cons, ih, under_append]
    cases under dir names place <;> cases under dir names' place <;> simp

theorem under_insert {dir names : List String} {name : String} (h : names.contains name = true)
    (names' place : List String) :
    under dir (names ++ name :: names') place = under dir (names ++ names') place := by
  rw [under_append, under_append, under, under, under, List.any_cons]
  cases hname : (dir ++ [name]).isPrefixOf place with
  | false => rw [Bool.false_or]
  | true =>
    have hany : (names.any fun name => (dir ++ [name]).isPrefixOf place) = true :=
      List.any_eq_true.mpr ⟨name, List.contains_iff_mem.mp h, hname⟩
    rw [hany, Bool.true_or, Bool.true_or]

theorem under_entry (dir names : List String) (name : String) (rest : List String) :
    under dir names (dir ++ name :: rest) = names.contains name := by
  rw [under, List.contains_eq_any_beq]
  congr 1
  funext name'
  rw [Bool.eq_iff_iff, List.isPrefixOf_iff_prefix, beq_iff_eq, List.prefix_append_right_inj]
  simp [eq_comm]

theorem without_congr (tree : FileTree) {P Q : List String → Bool} (h : ∀ place, P place = Q place) :
    tree.without P = tree.without Q := by
  rw [funext h]

theorem without_without (tree : FileTree) (P Q : List String → Bool) :
    (tree.without P).without Q = tree.without fun place => P place || Q place := by
  simp only [FileTree.without, List.filter_filter, FileTree.mk.injEq]
  apply List.filter_congr
  intro entry _
  cases P entry.1 <;> cases Q entry.1 <;> rfl

namespace Host

variable (host : Host)

def baseDir (base : String) : List String := target host.cwd (Path.parse base)

def onPath (base name : String) : Bool :=
  (pathPlaces host.cwd (Path.parse base)).any (under (host.baseDir base) [name])

def doomed (tree : FileTree) (base : String) (keep : List String) : List String → List String
  | [] => []
  | name :: names =>
    if host.isCollectable tree base keep name then
      name :: if host.onPath base name then [] else doomed tree base keep names
    else doomed tree base keep names

end Host

variable {base : String} {keep : List String}

theorem places_entry {name : String} (hname : name.toList.head? ≠ some '.') (file : String) (hfile : file ≠ "..") :
    pathPlaces host.cwd (((Path.parse base).child name).child file) =
      pathPlaces host.cwd (Path.parse base) ++ [host.baseDir base ++ [name], host.baseDir base ++ [name, file]] := by
  have hne : name ≠ ".." := by
    rintro rfl
    exact hname rfl
  have htarget : target host.cwd ((Path.parse base).child name) = host.baseDir base ++ [name] := by
    simp only [target, Path.child, List.foldl_append, List.foldl_cons, List.foldl_nil, advance, if_neg hne]
    rfl
  rw [pathPlaces_child, pathPlaces_child, htarget]
  simp only [advance, if_neg hne, if_neg hfile, List.append_assoc, List.cons_append, List.nil_append]
  rfl

theorem isCollectable_cut (hcut : (pathPlaces host.cwd (Path.parse base)).any P = true) (name : String) :
    host.isCollectable (tree.without P) base keep name = false := by
  have hgone (file : String) :
      (tree.without P).pathExists host.cwd (((Path.parse base).child name).child file) = false := by
    rw [pathExists_without, any_child_of_dir _ (any_child_of_dir _ hcut)]
    rfl
  rw [Host.isCollectable, Host.hasMeta, hgone, hgone]
  simp

theorem isCollectable_without {gone : List String}
    (hpath : (pathPlaces host.cwd (Path.parse base)).any (under (host.baseDir base) gone) = false) (name : String) :
    host.isCollectable (tree.without (under (host.baseDir base) gone)) base keep name =
      (!gone.contains name && host.isCollectable tree base keep name) := by
  by_cases hdot : name.toList.head? = some '.'
  · simp [Host.isCollectable, hdot]
  · have hexists (file : String) (hfile : file ≠ "..") :
        (tree.without (under (host.baseDir base) gone)).pathExists host.cwd
            (((Path.parse base).child name).child file) =
          (!gone.contains name && tree.pathExists host.cwd (((Path.parse base).child name).child file)) := by
      rw [pathExists_without, places_entry hdot file hfile, List.any_append, hpath]
      simp [under_entry]
    rw [Host.isCollectable, Host.isCollectable, Host.hasMeta, Host.hasMeta, hexists _ (by decide),
      hexists _ (by decide)]
    cases gone.contains name <;> simp

theorem lookup_collectable {name : String} (h : host.isCollectable tree base keep name = true) :
    tree.lookup host.cwd ((Path.parse base).child name) = some .dir ∧
      target host.cwd ((Path.parse base).child name) = host.baseDir base ++ [name] := by
  simp only [Host.isCollectable, Bool.and_eq_true, bne_iff_ne, ne_eq] at h
  obtain ⟨⟨hdot, hmeta⟩, -⟩ := h
  have hne : name ≠ ".." := by
    rintro rfl
    exact hdot rfl
  constructor
  · have hdir (file : String) (hexists : tree.pathExists host.cwd (((Path.parse base).child name).child file) = true) :
        tree.lookup host.cwd ((Path.parse base).child name) = some .dir := by
      simp only [pathExists, FileTree.lookup, Path.child] at hexists
      rw [resolve_append] at hexists
      split at hexists
      · assumption
      · cases hexists
    rcases Bool.or_eq_true _ _ ▸ hmeta with htemplate | hincremental
    · exact hdir _ htemplate
    · exact hdir _ hincremental
  · simp only [target, Path.child, List.foldl_append, List.foldl_cons, List.foldl_nil, advance, if_neg hne]
    rfl

theorem foldl_cut (hcut : (pathPlaces host.cwd (Path.parse base)).any P = true) (names removed : List String) :
    (names.foldl (host.collect base keep) (tree.without P, removed)).1 = tree.without P := by
  induction names with
  | nil => rfl
  | cons name names ih =>
    rw [List.foldl_cons, Host.collect, isCollectable_cut hcut, if_neg Bool.false_ne_true]
    exact ih

theorem collect_removes {gone removed : List String} {name : String}
    (hpath : (pathPlaces host.cwd (Path.parse base)).any (under (host.baseDir base) gone) = false)
    (hcollect : host.isCollectable tree base keep name = true) (hgone : gone.contains name = false) :
    host.collect base keep (tree.without (under (host.baseDir base) gone), removed) name =
      (tree.without (under (host.baseDir base) (gone ++ [name])), removed ++ [name]) := by
  have hcurrent : host.isCollectable (tree.without (under (host.baseDir base) gone)) base keep name = true := by
    rw [isCollectable_without hpath, hgone, hcollect]
    rfl
  obtain ⟨hlookup, htarget⟩ := lookup_collectable hcurrent
  rw [Host.collect, if_pos hcurrent, FileTree.removeDirAll, hlookup, htarget, without_without]
  simp only [Prod.mk.injEq, and_true]
  apply without_congr
  intro place
  rw [under_append]
  simp [under]

theorem doomed_removed (tree : FileTree) (keep names removed : List String) {gone : List String}
    (hpath : (pathPlaces host.cwd (Path.parse base)).any (under (host.baseDir base) gone) = false) :
    (names.foldl (host.collect base keep) (tree.without (under (host.baseDir base) gone), removed)).1 =
      tree.without (under (host.baseDir base) (gone ++ host.doomed tree base keep names)) := by
  induction names generalizing gone removed with
  | nil => simp [Host.doomed]
  | cons name names ih =>
    rw [List.foldl_cons, Host.doomed]
    cases hcollect : host.isCollectable tree base keep name with
    | false =>
      rw [if_neg Bool.false_ne_true, Host.collect, isCollectable_without hpath, hcollect, Bool.and_false,
        if_neg Bool.false_ne_true]
      exact ih removed hpath
    | true =>
      rw [if_pos rfl]
      cases hgone : gone.contains name with
      | true =>
        have honPath : host.onPath base name = false := by
          have hinsert : (pathPlaces host.cwd (Path.parse base)).any (under (host.baseDir base) (gone ++ [name])) =
              (pathPlaces host.cwd (Path.parse base)).any (under (host.baseDir base) gone) := by
            congr 1
            funext place
            rw [under_insert hgone, List.append_nil]
          rw [hpath, any_under_append, Bool.or_eq_false_iff] at hinsert
          exact hinsert.2
        rw [honPath, if_neg Bool.false_ne_true, Host.collect, isCollectable_without hpath, hgone, hcollect,
          if_neg (by decide), ih removed hpath]
        exact without_congr tree fun place => (under_insert hgone _ place).symm
      | false =>
        rw [collect_removes hpath hcollect hgone]
        cases honPath : host.onPath base name with
        | true =>
          have hcut : (pathPlaces host.cwd (Path.parse base)).any (under (host.baseDir base) (gone ++ [name])) = true := by
            rw [any_under_append, hpath]
            exact honPath
          rw [if_pos rfl]
          exact foldl_cut hcut names _
        | false =>
          have hpath' : (pathPlaces host.cwd (Path.parse base)).any (under (host.baseDir base) (gone ++ [name])) = false := by
            rw [any_under_append, hpath]
            exact honPath
          rw [if_neg Bool.false_ne_true, ih _ hpath', List.append_assoc, List.singleton_append]

theorem doomed_collectable {names : List String} {name : String} (h : name ∈ host.doomed tree base keep names) :
    host.isCollectable tree base keep name = true := by
  induction names with
  | nil => cases h
  | cons name' names ih =>
    rw [Host.doomed] at h
    split at h
    · rename_i hcollect
      rcases List.mem_cons.mp h with rfl | hrest
      · exact hcollect
      · split at hrest
        · cases hrest
        · exact ih hrest
    · exact ih h

theorem prefix_dropLast {l l' : List String} (h : l <+: l') (hne : l ≠ l') : l <+: l'.dropLast := by
  obtain ⟨rest, rfl⟩ := h
  have hrest : rest ≠ [] := by
    rintro rfl
    exact hne (List.append_nil l).symm
  rw [List.dropLast_append_of_ne_nil hrest]
  exact List.prefix_append _ _

theorem fileClosed_doomed (names : List String) :
    FileClosed tree (under (host.baseDir base) (host.doomed tree base keep names)) := by
  intro place content hfile hunder
  obtain ⟨name, hname, hpre⟩ := List.any_eq_true.mp hunder
  rw [List.isPrefixOf_iff_prefix] at hpre
  refine List.any_eq_true.mpr ⟨name, hname, ?_⟩
  rw [List.isPrefixOf_iff_prefix]
  apply prefix_dropLast hpre
  rintro rfl
  -- The entry itself is a directory.
  obtain ⟨hlookup, htarget⟩ := lookup_collectable (doomed_collectable hname)
  have hdir := resolve_target tree _ _ hlookup
  change tree.node? (target host.cwd ((Path.parse base).child name)) = some .dir at hdir
  rw [htarget, hfile] at hdir
  cases hdir

def Host.collected (host : Host) (tree : FileTree) (base : String) (activeTags : List String) : List String :=
  host.doomed tree base (activeTags.flatMap (host.reachable tree base))
    ((tree.readDir host.cwd (Path.parse base)).getD [])

theorem gcSnapshots_tree {activeTags removed : List String} {tree' : FileTree}
    (h : host.gcSnapshots tree base activeTags = .ok (tree', removed)) :
    tree' = tree.without (under (host.baseDir base) (host.collected tree base activeTags)) := by
  unfold Host.gcSnapshots at h
  dsimp only at h
  split at h
  · cases h
  · rename_i names hnames
    have hstart : tree.without (under (host.baseDir base) []) = tree := by
      simp [FileTree.without, under]
    have hempty : (pathPlaces host.cwd (Path.parse base)).any (under (host.baseDir base) []) = false := by
      simp [under]
    have hfold := doomed_removed tree (activeTags.flatMap (host.reachable tree base)) names [] hempty
    rw [hstart, List.nil_append] at hfold
    rw [Host.collected, hnames, Option.getD_some, ← hfold]
    exact (congrArg Prod.fst (Except.ok.inj h)).symm

theorem gcSnapshots_ok {names : List String} (activeTags : List String)
    (h : tree.readDir host.cwd (Path.parse base) = some names) :
    ∃ tree' removed, host.gcSnapshots tree base activeTags = .ok (tree', removed) := by
  rw [Host.gcSnapshots, h]
  exact ⟨_, _, rfl⟩

theorem walkChain_collected_iff {tag : String} {activeTags : List String} {chain : List ChainNode}
    (h : host.walkChain tree tag = .ok chain) :
    host.walkChain (tree.without (under (host.baseDir base) (host.collected tree base activeTags))) tag = .ok chain ↔
      ∀ place ∈ walkPlaces host tree 257 tag, ∀ name ∈ host.collected tree base activeTags,
        ¬ host.baseDir base ++ [name] <+: place := by
  refine (walkFrom_without_iff (fileClosed_doomed _) 257 [] chain tag h).trans ?_
  rw [List.any_eq_false]
  apply forall₂_congr
  intro place _
  simp [under, Host.collected]

/-- After a collection every chain of an active tag is as before exactly when no place that loading
it passes lies in an entry that is collected. -/
theorem gcSnapshots_keeps_iff (host : Host) (tree tree' : FileTree) (base : String)
    (activeTags removed : List String) (hgc : host.gcSnapshots tree base activeTags = .ok (tree', removed))
    (hlive : ∀ tag ∈ activeTags, ∃ chain, host.walkChain tree (Host.joinText base tag) = .ok chain) :
    (∀ tag ∈ activeTags,
        host.walkChain tree' (Host.joinText base tag) = host.walkChain tree (Host.joinText base tag)) ↔
      ∀ tag ∈ activeTags, ∀ place ∈ walkPlaces host tree 257 (Host.joinText base tag),
        ∀ name ∈ host.collected tree base activeTags, ¬ host.baseDir base ++ [name] <+: place := by
  rw [gcSnapshots_tree hgc]
  apply forall₂_congr
  intro tag htag
  obtain ⟨chain, hchain⟩ := hlive tag htag
  rw [hchain]
  exact walkChain_collected_iff hchain

def rootJson : String :=
  "\x7b\"memory_file\":\"/snap/root/memory.raw\",\"vcpu_states\":[],\"device_states\":\x7b\"serial\":null," ++
    "\"virtio_configs\":\x7b\x7d\x7d,\"memory_size\":0,\"runtime_type\":\"bare\",\"memory_hash\":\"\"\x7d"

def incJson : String :=
  "\x7b\"base_template\":\"/snap/root\",\"dirty_bitmap\":[],\"dirty_pages_file\":\"/snap/inc1/dirty_pages.raw\"," ++
    "\"vcpu_states\":[],\"device_states\":\x7b\"serial\":null,\"virtio_configs\":\x7b\x7d\x7d,\"memory_size\":0\x7d"

def rootMeta : TemplateMeta := ⟨⟨none, none, 0, "full"⟩, "/snap/root/memory.raw"⟩

def incMeta : IncrementalMeta := ⟨⟨none, none, 0, "incremental"⟩, "/snap/root"⟩

def smallHost : Host where
  cwd := []
  parseTemplate := fun text =>
    if text = rootJson then some rootMeta else none
  parseIncremental := fun text =>
    if text = incJson then some incMeta else none

def smallTree : FileTree where
  nodes :=
    [([], .dir), (["snap"], .dir), (["snap", "root"], .dir), (["snap", "root", "template.json"], .file rootJson),
      (["snap", "root", "memory.raw"], .file ""), (["snap", "inc1"], .dir),
      (["snap", "inc1", "incremental.json"], .file incJson), (["snap", "inc1", "dirty_pages.raw"], .file ""),
      (["snap", "inc2"], .dir), (["snap", "inc2", "incremental.json"], .file incJson)]

/-- What the runs below ask of the tree. -/
theorem smallTree_asks :
    smallTree.readDir smallHost.cwd (Path.parse "/snap") = some ["root", "inc1", "inc2"] ∧
      (∀ tag ∈ ["/snap/inc1", "/snap/root"], smallTree.pathExists smallHost.cwd (Path.parse tag) = true) ∧
      smallTree.pathExists smallHost.cwd (Path.parse rootMeta.memoryFile) = true ∧
      (∀ name ∈ ["inc2", "root"], smallHost.hasMeta smallTree "/snap" name = true) ∧
      (smallTree.removeDirAll smallHost.cwd ((Path.parse "/snap").child "inc2")).isSome = true := by
  decide +kernel

theorem smallTree_names : smallTree.readDir smallHost.cwd (Path.parse "/snap") = some ["root", "inc1", "inc2"] :=
  smallTree_asks.1

theorem smallTree_exists {tag : String} (htag : tag ∈ ["/snap/inc1", "/snap/root"]) :
    smallTree.pathExists smallHost.cwd (Path.parse tag) = true := smallTree_asks.2.1 tag htag

theorem smallTree_hasMeta {name : String} (hname : name ∈ ["inc2", "root"]) :
    smallHost.hasMeta smallTree "/snap" name = true := smallTree_asks.2.2.2.1 name hname

theorem smallTree_inc : smallHost.loadIncremental smallTree "/snap/inc1" = some incMeta := by
  have hread : smallTree.readToString smallHost.cwd (incrementalFile "/snap/inc1") = some incJson := by rfl
  have hparse : smallHost.parseIncremental incJson = some incMeta := by simp [smallHost]
  rw [Host.loadIncremental, hread]
  exact hparse

theorem smallTree_root_inc : smallHost.loadIncremental smallTree "/snap/root" = none := by
  have hread : smallTree.readToString smallHost.cwd (incrementalFile "/snap/root") = none := by rfl
  rw [Host.loadIncremental, hread]
  rfl

theorem smallTree_root : smallHost.loadTemplate smallTree "/snap/root" = some rootMeta := by
  have hread : smallTree.readToString smallHost.cwd (templateFile "/snap/root") = some rootJson := by rfl
  have hparse : smallHost.parseTemplate rootJson = some rootMeta := by simp [smallHost]
  obtain ⟨-, -, hmemory, -⟩ := smallTree_asks
  rw [Host.loadTemplate, hread]
  dsimp only
  rw [hparse]
  exact if_pos hmemory

theorem smallChain_inc : smallHost.walkChain smallTree "/snap/inc1" =
    .ok [⟨none, "full", 0, "/snap/root"⟩, ⟨none, "incremental", 0, "/snap/inc1"⟩] := by
  rw [Host.walkChain, Host.walkFrom, smallTree_inc]
  dsimp only
  rw [if_neg (by decide), Host.parentOf, incMeta, Option.getD_none, Host.walkFrom, smallTree_root_inc, smallTree_root]
  rfl

theorem smallChain_root : smallHost.walkChain smallTree "/snap/root" = .ok [⟨none, "full", 0, "/snap/root"⟩] := by
  rw [Host.walkChain, Host.walkFrom, smallTree_root_inc, smallTree_root]
  rfl

theorem smallTree_reachable_inc : smallHost.reachable smallTree "/snap" "inc1" = ["inc1"] := by
  have hjoin : Host.joinText "/snap" "inc1" = "/snap/inc1" := by decide
  rw [Host.reachable, hjoin, smallTree_exists List.mem_cons_self, if_pos rfl, smallChain_inc]
  rfl

theorem smallTree_reachable_root : smallHost.reachable smallTree "/snap" "root" = ["root"] := by
  have hjoin : Host.joinText "/snap" "root" = "/snap/root" := by decide
  rw [Host.reachable, hjoin, smallTree_exists (List.mem_cons_of_mem _ List.mem_cons_self), if_pos rfl, smallChain_root]
  rfl

theorem smallTree_collected_named : smallHost.collected smallTree "/snap" ["inc1", "root"] = ["inc2"] := by
  have hmeta := smallTree_hasMeta (List.mem_cons_self (a := "inc2"))
  rw [Host.collected, smallTree_names]
  simp [smallTree_reachable_inc, smallTree_reachable_root, Host.doomed, Host.isCollectable, hmeta]

theorem smallTree_gc : ∃ tree', smallHost.gcSnapshots smallTree "/snap" ["inc1", "root"] = .ok (tree', ["inc2"]) := by
  have hmeta := smallTree_hasMeta (List.mem_cons_self (a := "inc2"))
  obtain ⟨-, -, -, -, hsome⟩ := smallTree_asks
  obtain ⟨tree', hremove⟩ := Option.isSome_iff_exists.mp hsome
  use tree'
  simp [Host.gcSnapshots, smallTree_names, smallTree_reachable_inc, smallTree_reachable_root, Host.collect,
    Host.isCollectable, hmeta, hremove]

theorem smallTree_places : ∀ place ∈ pathPlaces smallHost.cwd (templateFile "/snap/root") ++
    (pathPlaces smallHost.cwd (Path.parse rootMeta.memoryFile) ++ pathPlaces smallHost.cwd (incrementalFile "/snap/inc1")),
      ¬ ["snap", "inc2"] <+: place := by
  decide

theorem smallTree_walkPlaces {dir : String} (hdir : dir = "/snap/inc1" ∨ dir = "/snap/root") :
    ∀ place ∈ walkPlaces smallHost smallTree 257 dir, ¬ ["snap", "inc2"] <+: place := by
  obtain ⟨htemplate, hrest⟩ := List.forall_mem_append.mp smallTree_places
  obtain ⟨hmemory, hincremental⟩ := List.forall_mem_append.mp hrest
  have hroot : ∀ left, ∀ place ∈ walkPlaces smallHost smallTree (left + 1) "/snap/root", ¬ ["snap", "inc2"] <+: place := by
    intro left
    rw [walkPlaces, smallTree_root_inc, smallTree_root]
    exact List.forall_mem_append.mpr
      ⟨List.forall_mem_append.mpr ⟨htemplate, hmemory⟩, List.forall_mem_nil _⟩
  rcases hdir with rfl | rfl
  · rw [walkPlaces, smallTree_inc]
    exact List.forall_mem_append.mpr ⟨hincremental, hroot 255⟩
  · exact hroot 256

theorem smallTree_collected_root : "root" ∈ smallHost.collected smallTree "/snap" ["inc1"] := by
  have hmeta := smallTree_hasMeta (List.mem_cons_of_mem "inc2" (List.mem_singleton_self "root"))
  rw [Host.collected, smallTree_names, Option.getD_some, Host.doomed, if_pos]
  · exact List.mem_cons_self
  · simp [smallTree_reachable_inc, Host.isCollectable, hmeta]

theorem gcSnapshots_keeps_named : ∃ tree',
    smallHost.gcSnapshots smallTree "/snap" ["inc1", "root"] = .ok (tree', ["inc2"]) ∧
    ∀ tag ∈ ["inc1", "root"], smallHost.walkChain tree' (Host.joinText "/snap" tag) =
      smallHost.walkChain smallTree (Host.joinText "/snap" tag) := by
  obtain ⟨tree', hgc⟩ := smallTree_gc
  refine ⟨tree', hgc, ?_⟩
  apply (gcSnapshots_keeps_iff smallHost smallTree tree' "/snap" ["inc1", "root"] _ hgc ?_).mpr
  · rw [smallTree_collected_named]
    intro tag htag place hplace name hname
    obtain rfl := List.mem_singleton.mp hname
    refine smallTree_walkPlaces ?_ place hplace
    simp only [List.mem_cons, List.not_mem_nil, or_false] at htag
    rcases htag with rfl | rfl
    · exact .inl (by decide)
    · exact .inr (by decide)
  · intro tag htag
    simp only [List.mem_cons, List.not_mem_nil, or_false] at htag
    rcases htag with rfl | rfl
    · exact ⟨_, smallChain_inc⟩
    · exact ⟨_, smallChain_root⟩

theorem gcSnapshots_keeps_fails :
    ¬ ∀ (host : Host) (tree tree' : FileTree) (base : String) (activeTags removed : List String),
      host.gcSnapshots tree base activeTags = .ok (tree', removed) →
      (∀ tag ∈ activeTags, ∃ chain, host.walkChain tree (Host.joinText base tag) = .ok chain) →
      ∀ tag ∈ activeTags,
        host.walkChain tree' (Host.joinText base tag) = host.walkChain tree (Host.joinText base tag) := by
  intro h
  obtain ⟨tree', removed, hgc⟩ := gcSnapshots_ok ["inc1"] smallTree_names
  have hjoin : Host.joinText "/snap" "inc1" = "/snap/inc1" := by decide
  have hlive : ∀ tag ∈ ["inc1"], ∃ chain, smallHost.walkChain smallTree (Host.joinText "/snap" tag) = .ok chain := by
    intro tag htag
    cases List.mem_singleton.mp htag
    exact ⟨_, smallChain_inc⟩
  have hkeeps := h smallHost smallTree tree' "/snap" ["inc1"] removed hgc hlive "inc1" List.mem_cons_self
  rw [gcSnapshots_tree hgc, hjoin, smallChain_inc, walkChain_collected_iff smallChain_inc] at hkeeps
  have hplace : ["snap", "root"] ∈ walkPlaces smallHost smallTree 257 "/snap/inc1" := by
    rw [walkPlaces, smallTree_inc]
    apply List.mem_append_right
    rw [Host.parentOf, incMeta, Option.getD_none, walkPlaces, smallTree_root_inc, smallTree_root]
    apply List.mem_append_left
    apply List.mem_append_left
    decide
  exact hkeeps _ hplace "root" smallTree_collected_root (List.prefix_refl _)

end CloneVmm.Boot
