import CloneVmm.Boot.Chain
import CloneVmm.Boot.Snapshot

/-!
`boot/template.rs`: `resolve_chain`, which puts a chain of snapshots together, and `compact_chain`,
which writes the result as a snapshot of its own.
-/

namespace CloneVmm.Boot

open CloneVmm.Lib CloneVmm.Memory

structure TemplateSnapshot extends TemplateMeta where
  vcpuStates : List VcpuState
  deviceStates : DeviceStates
  memorySize : Nat
  runtimeType : String
  memoryHash : String
  blockDevice : Option String
  clockNs : Nat
  overlayPath : Option String
  guestIp : Option String
  deriving DecidableEq

structure IncrementalFile extends IncrementalMeta where
  dirtyBitmap : List UInt8
  dirtyPagesFile : String
  vcpuStates : List VcpuState
  deviceStates : DeviceStates
  memorySize : Nat

def IncrementalFile.withPages (inc : IncrementalFile) (dirtyPages : List UInt8) : IncrementalSnapshot :=
  ⟨inc.baseTemplate, inc.dirtyBitmap, dirtyPages, inc.vcpuStates, inc.deviceStates, inc.memorySize, inc.tag,
    inc.parentTag, inc.chainDepth, inc.snapshotType⟩

structure SnapshotHost where
  cwd : List String
  parseTemplate : List UInt8 → Option TemplateSnapshot
  parseIncremental : List UInt8 → Option IncrementalFile
  renderTemplate : TemplateSnapshot → Option (List UInt8)
  sha256 : List UInt8 → List UInt8

abbrev ByteTree := FileTree (List UInt8)

def hexByte (b : UInt8) : String := String.ofList [Nat.digitChar (b.toNat / 16), Nat.digitChar (b.toNat % 16)]

def hashHex (hash : List UInt8) : String := String.join (hash.map hexByte)

namespace SnapshotHost

variable (host : SnapshotHost) (tree : ByteTree)

def chainHost : Host (List UInt8) where
  cwd := host.cwd
  parseTemplate data := (host.parseTemplate data).map TemplateSnapshot.toTemplateMeta
  parseIncremental data := (host.parseIncremental data).map IncrementalFile.toIncrementalMeta

def walkChain (leafDir : String) : Except String (List ChainNode) := host.chainHost.walkChain tree leafDir

def loadTemplate (dir : String) : Except String TemplateSnapshot :=
  match tree.readToString host.cwd (templateFile dir) with
  | none => .error ("Failed to read template metadata: " ++ Host.joinText dir "template.json")
  | some data =>
    match host.parseTemplate data with
    | none => .error "Failed to parse template metadata"
    | some full =>
      if tree.pathExists host.cwd (Path.parse full.memoryFile) then .ok full
      else .error ("Template memory file not found: " ++ full.memoryFile)

def loadIncremental (dir : String) : Except String IncrementalFile :=
  match tree.readToString host.cwd (incrementalFile dir) with
  | none => .error ("Failed to read incremental metadata: " ++ Host.joinText dir "incremental.json")
  | some data =>
    match host.parseIncremental data with
    | none => .error "Failed to parse incremental snapshot metadata"
    | some inc => .ok inc

def rootMemory (rootDir : String) : Except String (List UInt8) := do
  let root ← host.loadTemplate tree rootDir
  match tree.readToString host.cwd (Path.parse root.memoryFile) with
  | none => .error ("Failed to read root memory: " ++ root.memoryFile)
  | some mem => .ok mem

def loadDiff (dir : String) : Except String IncrementalSnapshot := do
  let inc ← host.loadIncremental tree dir
  match tree.readToString host.cwd (Path.parse inc.dirtyPagesFile) with
  | none => .error ("Failed to read dirty pages: " ++ inc.dirtyPagesFile)
  | some dirtyData => .ok (inc.withPages dirtyData)

def applyDiffs : List UInt8 → List ChainNode → Except String (List UInt8)
  | mem, [] => .ok mem
  | mem, node :: nodes => do
    let diff ← host.loadDiff tree node.dir
    applyDiffs (applyDiff mem diff) nodes

def leafStates (leafDir : String) : Except String (List VcpuState × DeviceStates) :=
  match host.loadIncremental tree leafDir with
  | .ok inc => .ok (inc.vcpuStates, inc.deviceStates)
  | .error _ => do
    let full ← host.loadTemplate tree leafDir
    return (full.vcpuStates, full.deviceStates)

def resolveChain (leafDir : String) : Except String (List UInt8 × List VcpuState × DeviceStates) := do
  let chain ← host.walkChain tree leafDir
  match chain with
  | [] => .error ("Empty chain at " ++ leafDir)
  | root :: nodes =>
    let rootMem ← host.rootMemory tree root.dir
    let mem ← host.applyDiffs tree rootMem nodes
    let states ← host.leafStates tree ((root :: nodes).getLast (List.cons_ne_nil root nodes)).dir
    return (mem, states)

def orError {α : Type} (message : String) : Option α → Except String α
  | some a => .ok a
  | none => .error message

structure RootMeta where
  runtimeType : String := "compacted"
  blockDevice : Option String := none
  clockNs : Nat := 0
  overlayPath : Option String := none
  guestIp : Option String := none

def rootMeta (chain : List ChainNode) : RootMeta :=
  match chain with
  | [] => {}
  | root :: _ =>
    match host.loadTemplate tree root.dir with
    | .ok t => ⟨t.runtimeType, t.blockDevice, t.clockNs, t.overlayPath, t.guestIp⟩
    | .error _ => {}

def saveMetadata (snapshot : TemplateSnapshot) (dir : String) : Except String ByteTree := do
  let tree ← orError ("Failed to create template dir: " ++ dir) (tree.createDirAll host.cwd (Path.parse dir))
  let json ← orError "Failed to serialize template metadata" (host.renderTemplate snapshot)
  orError ("Failed to write template metadata: " ++ Host.joinText dir "template.json")
    (tree.writeFile host.cwd (templateFile dir) json)

def memoryPath (outputDir : String) : String := Host.joinText outputDir "memory.raw"

def compactChain (leafDir outputDir : String) : Except String (ByteTree × TemplateSnapshot) := do
  let (mem, vcpuStates, deviceStates) ← host.resolveChain tree leafDir
  let tree ← orError ("Failed to create output dir: " ++ outputDir)
    (tree.createDirAll host.cwd (Path.parse outputDir))
  let tree ← orError ("Failed to write compacted memory: " ++ memoryPath outputDir)
    (tree.writeFile host.cwd ((Path.parse outputDir).child "memory.raw") mem)
  let chain ← host.walkChain tree leafDir
  let root := host.rootMeta tree chain
  let snapshot : TemplateSnapshot :=
    { memoryFile := memoryPath outputDir, vcpuStates, deviceStates, memorySize := mem.length,
      runtimeType := root.runtimeType, memoryHash := hashHex (host.sha256 mem), blockDevice := root.blockDevice,
      clockNs := root.clockNs, overlayPath := root.overlayPath, guestIp := root.guestIp, tag := none,
      parentTag := none, chainDepth := 0, snapshotType := "full" }
  let tree ← host.saveMetadata tree snapshot outputDir
  return (tree, snapshot)

end SnapshotHost

end CloneVmm.Boot
