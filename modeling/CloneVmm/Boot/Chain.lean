import CloneVmm.Lib.FileTree

/-!
`boot/template.rs`: chains of snapshots on disk, `walk_chain` and `gc_snapshots`. A snapshot refers
to its parent by a path in its metadata.
-/

namespace CloneVmm.Boot

open CloneVmm.Lib

structure ChainFields where
  tag : Option String
  parentTag : Option String
  chainDepth : Nat
  snapshotType : String
  deriving DecidableEq

structure TemplateMeta extends ChainFields where
  memoryFile : String
  deriving DecidableEq

structure IncrementalMeta extends ChainFields where
  baseTemplate : String

structure Host (γ : Type := String) where
  cwd : List String
  parseTemplate : γ → Option TemplateMeta
  parseIncremental : γ → Option IncrementalMeta

structure ChainNode where
  tag : Option String
  snapshotType : String
  chainDepth : Nat
  dir : String
  deriving DecidableEq

def ChainFields.node (fields : ChainFields) (dir : String) : ChainNode :=
  ⟨fields.tag, fields.snapshotType, fields.chainDepth, dir⟩

def templateFile (dir : String) : Path := (Path.parse dir).child "template.json"

def incrementalFile (dir : String) : Path := (Path.parse dir).child "incremental.json"

namespace Host

variable {γ : Type} (host : Host γ) (tree : FileTree γ)

def loadTemplate (dir : String) : Option TemplateMeta :=
  match tree.readToString host.cwd (templateFile dir) with
  | none => none
  | some text =>
    match host.parseTemplate text with
    | none => none
    | some full => if tree.pathExists host.cwd (Path.parse full.memoryFile) then some full else none

def loadIncremental (dir : String) : Option IncrementalMeta :=
  (tree.readToString host.cwd (incrementalFile dir)).bind host.parseIncremental

def parentOf (inc : IncrementalMeta) : String := inc.parentTag.getD inc.baseTemplate

def tooDeep (dir : String) : String := "Chain too deep (>256), possible cycle at " ++ dir

/-- The loop of `walk_chain`, which puts the node of `dir` in front of `chain`. A chain of more than
256 nodes is given up, so `left` never runs out from 257. -/
def walkFrom : Nat → List ChainNode → String → Except String (List ChainNode)
  | 0, _, dir => .error (tooDeep dir)
  | left + 1, chain, dir =>
    match host.loadIncremental tree dir with
    | some inc =>
      let chain := inc.node dir :: chain
      if 256 < chain.length then .error (tooDeep (parentOf inc)) else walkFrom left chain (parentOf inc)
    | none =>
      match host.loadTemplate tree dir with
      | some full =>
        let chain := full.node dir :: chain
        match full.parentTag with
        | none => .ok chain
        | some parent => if 256 < chain.length then .error (tooDeep parent) else walkFrom left chain parent
      | none => .error ("Cannot load snapshot at " ++ dir ++ ": not a valid template or incremental")

def walkChain (leafDir : String) : Except String (List ChainNode) := host.walkFrom tree 257 [] leafDir

def joinText (base name : String) : String :=
  if name.toList.head? = some '/' then name
  else if base.toList.getLast?.all (· == '/') then base ++ name
  else base ++ "/" ++ name

def reachable (base tag : String) : List String :=
  let tagDir := joinText base tag
  if tree.pathExists host.cwd (Path.parse tagDir) then
    match host.walkChain tree tagDir with
    | .ok chain => tag :: chain.filterMap ChainNode.tag
    | .error _ => [tag]
  else []

def hasMeta (base name : String) : Bool :=
  let entry := (Path.parse base).child name
  tree.pathExists host.cwd (entry.child "template.json") || tree.pathExists host.cwd (entry.child "incremental.json")

def isCollectable (base : String) (keep : List String) (name : String) : Bool :=
  name.toList.head? != some '.' && host.hasMeta tree base name && !keep.contains name

def collect (base : String) (keep : List String) (acc : FileTree γ × List String) (name : String) :
    FileTree γ × List String :=
  if host.isCollectable acc.1 base keep name then
    match acc.1.removeDirAll host.cwd ((Path.parse base).child name) with
    | some tree => (tree, acc.2 ++ [name])
    | none => acc
  else acc

def gcSnapshots (base : String) (activeTags : List String) : Except String (FileTree γ × List String) :=
  let keep := activeTags.flatMap (host.reachable tree base)
  match tree.readDir host.cwd (Path.parse base) with
  | none => .error ("Failed to read snapshot dir: " ++ base)
  | some names => .ok (names.foldl (host.collect base keep) (tree, []))

end Host

end CloneVmm.Boot
