import Mathlib.Data.List.AList
import Mathlib.Data.List.MinMax
import CloneVmm.Lib.Prog
import CloneVmm.Lib.PathBuf
import CloneVmm.Storage.Qcow2Header

/-!
`storage/qcow2.rs`: images with two levels of tables, clusters that are allocated when they are
written, reference counts, and a cache of tables of the second level.
-/

namespace CloneVmm.Storage

open CloneVmm.Lib

def l2FlagCopied : Nat := 1 <<< 63

def l2FlagCompressed : Nat := 1 <<< 62

def l2OffsetMask : Nat := 0x3FFFFFFFFFFFFE00

def l1OffsetMask : Nat := 0x00FFFFFFFFFFFE00

def l2CacheMaxTables : Nat := 256

def alignUp (value align : Nat) : Nat := (value + align - 1) % 2 ^ 64 / align * align

def divRoundUp (a b : Nat) : Nat := (a + b - 1) % 2 ^ 64 / b

structure L2CacheEntry where
  entries : List Nat
  dirty : Bool
  hostOffset : Nat
  lastAccess : Nat

abbrev L2Cache := AList fun _ : Nat => L2CacheEntry

structure Host where
  limit : Nat
  files : PathBuf → Option HostFile
  order : L2Cache → List Nat
  order_perm : ∀ cache, (order cache).Perm cache.keys

class Backing (B : Type) where
  readAt : Host → B → Nat → Nat → Except Qcow2Error Bytes × B

structure Qcow2File (B : Type) where
  file : HostFile
  header : Qcow2Header
  l1Table : List Nat
  refcountTable : List Nat
  l2Cache : L2Cache
  accessCounter : Nat
  nextAllocOffset : Nat
  backing : Option B

abbrev Io (B α : Type) := Prog Qcow2Error (Qcow2File B) α

def readTable (file : HostFile) (offset count : Nat) : Except Qcow2Error (List Nat) :=
  if count = 0 then .ok []
  else
    match file.readExact offset (count * 8) with
    | none => .error .unexpectedEof
    | some buf => .ok ((List.range count).map fun i => beNat ((buf.drop (i * 8)).take 8))

def tableBytes (entries : List Nat) : Bytes := entries.flatMap (beBytes 8)

namespace Qcow2File

variable {B : Type} (host : Host)

section FileAccess

def orFail {α : Type} (e : Qcow2Error) : Option α → Io B α
  | some a => pure a
  | none => throw e

def setLen (n : Nat) : Io B Unit :=
  if n ≤ host.limit then modifyGet fun q => ((), { q with file := q.file.setLen n }) else throw .refused

def writeAll (off : Nat) (bs : Bytes) : Io B Unit :=
  if off + bs.length ≤ host.limit then modifyGet fun q => ((), { q with file := q.file.write off bs })
  else throw .refused

def readExact (off n : Nat) : Io B Bytes := do
  orFail .unexpectedEof ((← get).file.readExact off n)

end FileAccess

def refcountsPerBlock (clusterSize : Nat) : Nat := clusterSize / 2

def growTo (table : List Nat) (n : Nat) : List Nat := table ++ List.replicate (n - table.length) 0

/-- The block of reference counts at a place of the table that has none yet. It counts itself where
it can; otherwise it is left uncounted. -/
def allocRefcountBlock (rcTableIndex : Nat) : Io B Unit := do
  let blockOffset := (← get).nextAllocOffset
  let clusterSize := (← get).header.clusterSize
  modifyGet fun q => ((), { q with nextAllocOffset := blockOffset + clusterSize })
  setLen host (blockOffset + clusterSize)
  modifyGet fun q => ((), { q with refcountTable := q.refcountTable.set rcTableIndex blockOffset })
  let selfClusterIndex := blockOffset / clusterSize
  if selfClusterIndex / refcountsPerBlock clusterSize = rcTableIndex then
    writeAll host (blockOffset + selfClusterIndex % refcountsPerBlock clusterSize * 2) (beBytes 2 1)
  else pure ()

def ensureRefcountBlock (rcTableIndex : Nat) : Io B Unit := do
  modifyGet fun q => ((), { q with refcountTable := growTo q.refcountTable (rcTableIndex + 1) })
  if (← get).refcountTable[rcTableIndex]? = some 0 then allocRefcountBlock host rcTableIndex else pure ()

def setRefcount (clusterOffset refcount : Nat) : Io B Unit := do
  let clusterSize := (← get).header.clusterSize
  let clusterIndex := clusterOffset / clusterSize
  let rcTableIndex := clusterIndex / refcountsPerBlock clusterSize
  let rcBlockIndex := clusterIndex % refcountsPerBlock clusterSize
  ensureRefcountBlock host rcTableIndex
  let blockOffset ← orFail .panicked (← get).refcountTable[rcTableIndex]?
  writeAll host (blockOffset + rcBlockIndex * 2) (beBytes 2 refcount)

def getRefcount (clusterOffset : Nat) : Io B Nat := do
  let q ← get
  let clusterIndex := clusterOffset / q.header.clusterSize
  let rcBlockIndex := clusterIndex % refcountsPerBlock q.header.clusterSize
  match q.refcountTable[clusterIndex / refcountsPerBlock q.header.clusterSize]? with
  | none | some 0 => return 0
  | some blockOffset => return beNat (← readExact (blockOffset + rcBlockIndex * 2) 2)

def allocCluster : Io B Nat := do
  let offset := (← get).nextAllocOffset
  let newLen := offset + (← get).header.clusterSize
  modifyGet fun q => ((), { q with nextAllocOffset := newLen })
  setLen host newLen
  setRefcount host offset 1
  return offset

def flushL2Table (l1Index : Nat) : Io B Unit := do
  let entry ← orFail .panicked ((← get).l2Cache.lookup l1Index)
  if entry.dirty then
    writeAll host entry.hostOffset (tableBytes entry.entries)
    modifyGet fun q => ((), { q with l2Cache := q.l2Cache.insert l1Index { entry with dirty := false } })
  else pure ()

def lastAccessOf (cache : L2Cache) (l1Index : Nat) : Nat := ((cache.lookup l1Index).map (·.lastAccess)).getD 0

def evictL2Entry : Io B Unit := do
  let cache := (← get).l2Cache
  match (host.order cache).argmin (lastAccessOf cache) with
  | none => pure ()
  | some idx =>
    flushL2Table host idx
    modifyGet fun q => ((), { q with l2Cache := q.l2Cache.erase idx })

def makeRoom : Io B Unit := do
  if (← get).l2Cache.keys.length ≥ l2CacheMaxTables then evictL2Entry host else pure ()

def loadL2Table (l1Index l2TableOffset : Nat) : Io B Unit := do
  makeRoom host
  let q ← get
  match readTable q.file l2TableOffset q.header.l2EntriesPerTable with
  | .error e => throw e
  | .ok entries =>
    let counter := q.accessCounter + 1
    modifyGet fun q =>
      ((), { q with accessCounter := counter, l2Cache := q.l2Cache.insert l1Index ⟨entries, false, l2TableOffset, counter⟩ })

def ensureL2Cached (l1Index l2TableOffset : Nat) : Io B Unit := do
  match (← get).l2Cache.lookup l1Index with
  | some entry =>
    modifyGet fun q =>
      ((), { q with accessCounter := q.accessCounter + 1,
                    l2Cache := q.l2Cache.insert l1Index { entry with lastAccess := q.accessCounter + 1 } })
  | none => loadL2Table host l1Index l2TableOffset

def getL2Entry (l1Index l2TableOffset l2Index : Nat) : Io B Nat := do
  ensureL2Cached host l1Index l2TableOffset
  let entry ← orFail .panicked ((← get).l2Cache.lookup l1Index)
  orFail .panicked entry.entries[l2Index]?

def l1IndexOf (h : Qcow2Header) (guestOffset : Nat) : Nat := guestOffset / h.clusterSize / h.l2EntriesPerTable

def l2IndexOf (h : Qcow2Header) (guestOffset : Nat) : Nat := guestOffset / h.clusterSize % h.l2EntriesPerTable

def hostOffsetOf (l2Entry : Nat) : Except Qcow2Error (Option Nat) :=
  if l2Entry = 0 then .ok none
  else if l2Entry &&& l2FlagCompressed ≠ 0 then .error .compressed
  else if l2Entry &&& l2OffsetMask = 0 then .ok none
  else .ok (some (l2Entry &&& l2OffsetMask))

def translateCluster (guestOffset : Nat) : Io B (Option Nat) := do
  let q ← get
  let l1Index := l1IndexOf q.header guestOffset
  if l1Index % 2 ^ 32 < q.header.l1Size then
    let l1Entry ← orFail .panicked q.l1Table[l1Index]?
    if l1Entry &&& l1OffsetMask = 0 then return none
    else
      let l2Entry ← getL2Entry host (l1Index % 2 ^ 32) (l1Entry &&& l1OffsetMask) (l2IndexOf q.header guestOffset)
      match hostOffsetOf l2Entry with
      | .ok hostOffset => return hostOffset
      | .error e => throw e
  else throw .l1OutOfBounds

def newL2Table (l1Index : Nat) : Io B Unit := do
  let newL2Offset ← allocCluster host
  modifyGet fun q =>
    let entries := List.replicate q.header.l2EntriesPerTable 0
    let counter := q.accessCounter + 1
    ((), { q with l1Table := q.l1Table.set l1Index (newL2Offset ||| l2FlagCopied), accessCounter := counter,
                  l2Cache := q.l2Cache.insert (l1Index % 2 ^ 32) ⟨entries, true, newL2Offset, counter⟩ })

def ensureL2Table (l1Index l1Entry : Nat) : Io B Unit :=
  if l1Entry &&& l1OffsetMask = 0 then newL2Table host l1Index
  else ensureL2Cached host (l1Index % 2 ^ 32) (l1Entry &&& l1OffsetMask)

def updateL2Entry (l1Index l2Index value : Nat) : Io B Unit := do
  let entry ← orFail .panicked ((← get).l2Cache.lookup l1Index)
  if l2Index < entry.entries.length then
    modifyGet fun q =>
      ((), { q with l2Cache := q.l2Cache.insert l1Index
                      { entry with entries := entry.entries.set l2Index value, dirty := true } })
  else throw .panicked

def setL2Entry (guestOffset value : Nat) : Io B Unit := do
  let q ← get
  let l1Index := l1IndexOf q.header guestOffset
  let l1Entry ← orFail .panicked q.l1Table[l1Index]?
  ensureL2Table host l1Index l1Entry
  updateL2Entry (l1Index % 2 ^ 32) (l2IndexOf q.header guestOffset) value

section Access

variable [Backing B]

def readBacking (offset n : Nat) : Io B Bytes := do
  match (← get).backing with
  | none => return List.replicate n 0
  | some b =>
    modifyGet fun q => ((), { q with backing := some (Backing.readAt host b offset n).2 })
    match (Backing.readAt host b offset n).1 with
    | .ok bytes => return bytes
    | .error e => throw e

def chunkLen (clusterBits pos remaining : Nat) : Nat := min (2 ^ clusterBits - pos % 2 ^ clusterBits) remaining

theorem chunkLen_pos (clusterBits pos remaining : Nat) (h : 0 < remaining) : 0 < chunkLen clusterBits pos remaining := by
  have hlt := Nat.mod_lt pos (Nat.two_pow_pos clusterBits)
  unfold chunkLen
  omega

theorem chunkLen_le (clusterBits pos remaining : Nat) : chunkLen clusterBits pos remaining ≤ remaining :=
  Nat.min_le_right _ _

theorem chunkLen_fits (clusterBits pos remaining : Nat) :
    pos % 2 ^ clusterBits + chunkLen clusterBits pos remaining ≤ 2 ^ clusterBits := by
  have hlt := Nat.mod_lt pos (Nat.two_pow_pos clusterBits)
  unfold chunkLen
  omega

def readChunk (clusterBits pos len : Nat) : Io B Bytes := do
  match ← translateCluster host pos with
  | some hostOff => readExact (hostOff + pos % 2 ^ clusterBits) len
  | none => readBacking host pos len

def readLoop (clusterBits pos remaining : Nat) : Io B Bytes :=
  if _h : 0 < remaining then do
    let chunk ← readChunk host clusterBits pos (chunkLen clusterBits pos remaining)
    let rest ← readLoop clusterBits (pos + chunkLen clusterBits pos remaining)
      (remaining - chunkLen clusterBits pos remaining)
    return chunk ++ rest
  else return []
  termination_by remaining
  decreasing_by
    have := chunkLen_pos clusterBits pos remaining _h
    omega

def readAt (offset n : Nat) : Io B Bytes := do
  let header := (← get).header
  if 2 ^ 64 ≤ offset + n then throw .offsetOverflow
  else if offset + n ≤ header.size then readLoop host header.clusterBits offset n
  else throw .readPastEnd

def fillCluster (clusterBits pos len newOffset : Nat) : Io B Unit :=
  if len < 2 ^ clusterBits then do
    let clusterBuf ← readBacking host (pos - pos % 2 ^ clusterBits) (2 ^ clusterBits)
    writeAll host newOffset clusterBuf
  else pure ()

def clusterForWrite (clusterBits pos len : Nat) : Io B Nat := do
  match ← translateCluster host pos with
  | some off => return off
  | none =>
    let newOffset ← allocCluster host
    fillCluster host clusterBits pos len newOffset
    setL2Entry host pos (newOffset ||| l2FlagCopied)
    return newOffset

def writeChunk (clusterBits pos : Nat) (chunk : Bytes) : Io B Unit := do
  let clusterHostOffset ← clusterForWrite host clusterBits pos chunk.length
  writeAll host (clusterHostOffset + pos % 2 ^ clusterBits) chunk

def writeLoop (clusterBits pos : Nat) (data : Bytes) : Io B Unit :=
  if _h : 0 < data.length then do
    writeChunk host clusterBits pos (data.take (chunkLen clusterBits pos data.length))
    writeLoop clusterBits (pos + chunkLen clusterBits pos data.length)
      (data.drop (chunkLen clusterBits pos data.length))
  else pure ()
  termination_by data.length
  decreasing_by
    have := chunkLen_pos clusterBits pos data.length _h
    rw [List.length_drop]
    omega

def writeAt (offset : Nat) (data : Bytes) : Io B Unit := do
  let header := (← get).header
  if 2 ^ 64 ≤ offset + data.length then throw .offsetOverflow
  else if offset + data.length ≤ header.size then writeLoop host header.clusterBits offset data
  else throw .writePastEnd

end Access

def flushL2Tables : List Nat → Io B Unit
  | [] => pure ()
  | l1Index :: rest => do
    flushL2Table host l1Index
    flushL2Tables rest

def writeL1Table : Io B Unit := do
  let q ← get
  writeAll host q.header.l1TableOffset (tableBytes q.l1Table)

def setRefcounts : List Nat → Io B Unit
  | [] => pure ()
  | offset :: rest => do
    setRefcount host offset 1
    setRefcounts rest

def relocateRefcountTable (clustersNeeded : Nat) : Io B Unit := do
  let newOffset := (← get).nextAllocOffset
  let clusterSize := (← get).header.clusterSize
  let newLen := newOffset + clustersNeeded * clusterSize
  modifyGet fun q => ((), { q with nextAllocOffset := newLen })
  setLen host newLen
  setRefcounts host ((List.range clustersNeeded).map fun i => newOffset + i * clusterSize)
  modifyGet fun q =>
    ((), { q with header := { q.header with refcountTableOffset := newOffset, refcountTableClusters := clustersNeeded } })
  writeAll host 0 (← get).header.bytes

def refcountTableClustersNeeded (q : Qcow2File B) : Nat :=
  divRoundUp (q.refcountTable.length * 8) q.header.clusterSize % 2 ^ 32

def growRefcountTable : Io B Unit := do
  let q ← get
  if q.refcountTableClustersNeeded > q.header.refcountTableClusters then
    relocateRefcountTable host q.refcountTableClustersNeeded
  else pure ()

def writeRefcountTable : Io B Unit := do
  growRefcountTable host
  let q ← get
  writeAll host q.header.refcountTableOffset (tableBytes q.refcountTable)

def dirtyIndices (q : Qcow2File B) : List Nat :=
  (host.order q.l2Cache).filter fun idx => ((q.l2Cache.lookup idx).map (·.dirty)).getD false

def flush : Io B Unit := do
  flushL2Tables host (dirtyIndices host (← get))
  writeL1Table host
  writeRefcountTable host

def drop (q : Qcow2File B) : HostFile := ((flush host).exec q).2.file

end Qcow2File

inductive BackingFile (B : Type)
  | qcow2 (image : Qcow2File B)
  | raw (file : HostFile) (size : Nat)

def BackingFile.readAt {B : Type} [Backing B] (host : Host) :
    BackingFile B → Nat → Nat → Except Qcow2Error Bytes × BackingFile B
  | qcow2 image, offset, n =>
    (((Qcow2File.readAt host offset n).exec image).1, qcow2 ((Qcow2File.readAt host offset n).exec image).2)
  | raw file size, offset, n =>
    if offset ≥ size then (.ok (List.replicate n 0), raw file size)
    else
      match file.readExact offset (min n (size - offset)) with
      | none => (.error .unexpectedEof, raw file size)
      | some bytes => (.ok (bytes ++ List.replicate (n - min n (size - offset)) 0), raw file size)

instance {B : Type} [Backing B] : Backing (BackingFile B) := ⟨BackingFile.readAt⟩

def resolveBackingPath (overlayPath : PathBuf) (backingName : String) : PathBuf :=
  if (PathBuf.ofStr backingName).absolute then .ofStr backingName
  else (overlayPath.parent.getD (.ofStr ".")).join (.ofStr backingName)

def openBackingFile {B : Type} (host : Host) (openImage : PathBuf → HostFile → Except Qcow2Error (Qcow2File B))
    (path : PathBuf) : Except Qcow2Error (BackingFile B) :=
  match host.files path with
  | none => .error .noSuchFile
  | some file =>
    if file.readExact 0 4 = some [0x51, 0x46, 0x49, 0xfb] then (openImage path file).map .qcow2
    else .ok (.raw file file.len)

def readBackingFilePath (file : HostFile) (header : Qcow2Header) : Except Qcow2Error String :=
  match file.readExact header.backingFileOffset header.backingFileSize with
  | none => .error .unexpectedEof
  | some buf =>
    match String.fromUTF8? ⟨buf.toArray⟩ with
    | none => .error .backingPathNotUtf8
    | some name => .ok name

section Open

variable {B : Type} (openBacking : PathBuf → Except Qcow2Error B) (path : PathBuf)

def openHeaderBacking (file : HostFile) (header : Qcow2Header) : Except Qcow2Error (Option B) :=
  if header.backingFileOffset ≠ 0 ∧ header.backingFileSize > 0 then do
    let name ← readBackingFilePath file header
    let backing ← openBacking (resolveBackingPath path name)
    return some backing
  else return none

def Qcow2File.openFile (file : HostFile) : Except Qcow2Error (Qcow2File B) := do
  let header ← Qcow2Header.readFrom file
  let l1Table ← readTable file header.l1TableOffset header.l1Size
  let refcountTable ← readTable file header.refcountTableOffset
    (header.refcountTableClusters * header.clusterSize / 8)
  let backing ← openHeaderBacking openBacking path file header
  return ⟨file, header, l1Table, refcountTable, ∅, 0, alignUp file.len header.clusterSize, backing⟩

end Open

section Create

variable (virtualSize clusterBits : Nat)

def createL1Size : Nat := divRoundUp (divRoundUp virtualSize (2 ^ clusterBits)) (2 ^ clusterBits / 8) % 2 ^ 32

def createL1Clusters : Nat := divRoundUp (createL1Size virtualSize clusterBits * 8) (2 ^ clusterBits)

def createRcBlocks : Nat := divRoundUp (1 + 1 + 1 + createL1Clusters virtualSize clusterBits) (2 ^ clusterBits / 2)

def createRcTableClusters : Nat := max (divRoundUp (createRcBlocks virtualSize clusterBits * 8) (2 ^ clusterBits)) 1

def createMetaClusters : Nat :=
  1 + createRcTableClusters virtualSize clusterBits + createRcBlocks virtualSize clusterBits
    + createL1Clusters virtualSize clusterBits

def createFirstRcBlock : Nat := 2 ^ clusterBits + createRcTableClusters virtualSize clusterBits * 2 ^ clusterBits

def createL1Offset : Nat :=
  createFirstRcBlock virtualSize clusterBits + createRcBlocks virtualSize clusterBits * 2 ^ clusterBits

def createFileEnd : Nat :=
  createL1Offset virtualSize clusterBits + createL1Clusters virtualSize clusterBits * 2 ^ clusterBits

def createHeader (backingName : Option String) : Qcow2Header where
  magic := qcow2Magic
  version := 3
  backingFileOffset := if backingName.isSome then qcow2V3HeaderSize else 0
  backingFileSize := (backingName.map (·.utf8ByteSize)).getD 0
  clusterBits := clusterBits
  size := virtualSize
  cryptMethod := 0
  l1Size := createL1Size virtualSize clusterBits
  l1TableOffset := createL1Offset virtualSize clusterBits
  refcountTableOffset := 2 ^ clusterBits
  refcountTableClusters := createRcTableClusters virtualSize clusterBits % 2 ^ 32
  nbSnapshots := 0
  snapshotsOffset := 0
  incompatibleFeatures := 0
  compatibleFeatures := 0
  autoclearFeatures := 0
  refcountOrder := defaultRefcountOrder
  headerLength := qcow2V3HeaderSize

def createRcTable : List Nat :=
  (List.range (createRcBlocks virtualSize clusterBits)).map fun i =>
    createFirstRcBlock virtualSize clusterBits + i * 2 ^ clusterBits

def createRcEntry (clusterIdx : Nat) : Nat :=
  createFirstRcBlock virtualSize clusterBits + clusterIdx / (2 ^ clusterBits / 2) * 2 ^ clusterBits
    + clusterIdx % (2 ^ clusterBits / 2) * 2

def createTables (backingName : Option String) : HostFile :=
  let file := HostFile.empty.write 0 (createHeader virtualSize clusterBits backingName).bytes
  let file := file.write qcow2V3HeaderSize ((backingName.map (·.toUTF8.data.toList)).getD [])
  let file := file.setLen (createFileEnd virtualSize clusterBits)
  file.write (2 ^ clusterBits) (tableBytes (createRcTable virtualSize clusterBits))

def setCreateRefcounts (file : HostFile) (clusterIdxs : List Nat) : HostFile :=
  clusterIdxs.foldl (fun file clusterIdx => file.write (createRcEntry virtualSize clusterBits clusterIdx) (beBytes 2 1)) file

def createFile (backingName : Option String) : HostFile :=
  setCreateRefcounts virtualSize clusterBits (createTables virtualSize clusterBits backingName)
    (List.range (createMetaClusters virtualSize clusterBits))

def Qcow2File.create {B : Type} (host : Host) (openBacking : PathBuf → Except Qcow2Error B) (path : PathBuf)
    (backingName : Option String) : Except Qcow2Error (Qcow2File B) :=
  if ¬ (9 ≤ clusterBits ∧ clusterBits ≤ 21) then .error .badClusterBits
  else if 2 ^ clusterBits < qcow2V3HeaderSize + (backingName.map (·.utf8ByteSize)).getD 0 then
    .error .backingPathTooLong
  else if (createFile virtualSize clusterBits backingName).len > host.limit then .error .refused
  else Qcow2File.openFile openBacking path (createFile virtualSize clusterBits backingName)

end Create

end CloneVmm.Storage
