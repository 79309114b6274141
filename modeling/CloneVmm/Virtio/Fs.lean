import Mathlib.Data.List.AList
import CloneVmm.Lib.Prog
import CloneVmm.Lib.PathBuf
import CloneVmm.Virtio.Fuse

/-!
`virtio/fs.rs`: the device that answers FUSE requests with calls to the file system of the host.
The host is a parameter: what it answers to each call, and the order in which a `HashMap` is
traversed. The calls are recorded in the state.
-/

namespace CloneVmm.Virtio

open CloneVmm.Lib Fuse

structure File where
  fd : Nat
  deriving DecidableEq

structure OpenOptions where
  read : Bool := false
  write : Bool := false
  append : Bool := false
  truncate : Bool := false
  create : Bool := false
  createNew : Bool := false
  mode : Nat := 0o666

/-- Calls with a path go to `std::fs` or, as C strings, to `libc`; the others to an open file. The
target of a symbolic link is a text that the call stores. -/
inductive HostCall
  | symlinkMetadata (path : PathBuf)
  | metadata (path : PathBuf)
  | openFile (path : PathBuf) (opts : OpenOptions)
  | setPermissions (path : PathBuf) (mode : Nat)
  | lchown (path : PathBuf) (uid gid : Nat)
  | readDir (path : PathBuf)
  | createDir (path : PathBuf) (mode : Nat)
  | removeFile (path : PathBuf)
  | removeDir (path : PathBuf)
  | rename (old new : PathBuf)
  | renameat2 (old new : PathBuf) (flags : Nat)
  | readLink (path : PathBuf)
  | symlink (target : String) (link : PathBuf)
  | mknod (path : PathBuf) (mode rdev : Nat)
  | hardLink (old new : PathBuf)
  | statvfs (path : PathBuf)
  | access (path : PathBuf) (mask : Nat)
  | lgetxattrSize (path : PathBuf) (name : String)
  | lgetxattr (path : PathBuf) (name : String) (size : Nat)
  | lsetxattr (path : PathBuf) (name : String) (value : Bytes) (flags : Nat)
  | llistxattrSize (path : PathBuf)
  | llistxattr (path : PathBuf) (size : Nat)
  | lremovexattr (path : PathBuf) (name : String)
  | fileMetadata (file : File)
  | setLen (file : File) (size : Nat)
  | seek (file : File) (offset : Nat)
  | read (file : File) (size : Nat)
  | write (file : File) (data : Bytes)
  | fallocate (file : File) (mode offset length : Nat)
  | lseek (file : File) (offset whence : Nat)

namespace HostCall

/-- Names of directory entries and targets of links are given as `to_string_lossy` makes them, and
buffers cut to the length the call returned. -/
def Result : HostCall → Type
  | symlinkMetadata _ | metadata _ | fileMetadata _ => Metadata
  | openFile _ _ => File
  | readDir _ => List String
  | readLink _ => String
  | statvfs _ => StatVfs
  | lgetxattr _ _ _ | llistxattr _ _ | read _ _ => Bytes
  | lgetxattrSize _ _ | llistxattrSize _ | write _ _ | lseek _ _ _ => Nat
  | setPermissions _ _ | lchown _ _ _ | createDir _ _ | removeFile _ | removeDir _ | rename _ _
  | renameat2 _ _ _ | symlink _ _ | mknod _ _ _ | hardLink _ _ | access _ _ | lsetxattr _ _ _ _
  | lremovexattr _ _ | setLen _ _ | seek _ _ | fallocate _ _ _ _ => Unit

def paths : HostCall → List PathBuf
  | symlinkMetadata p | metadata p | openFile p _ | setPermissions p _ | lchown p _ _ | readDir p
  | createDir p _ | removeFile p | removeDir p | readLink p | symlink _ p | mknod p _ _ | statvfs p
  | access p _ | lgetxattrSize p _ | lgetxattr p _ _ | lsetxattr p _ _ _ | llistxattrSize p
  | llistxattr p _ | lremovexattr p _ => [p]
  | rename p q | renameat2 p q _ | hardLink p q => [p, q]
  | fileMetadata _ | setLen _ _ | seek _ _ | read _ _ | write _ _ | fallocate _ _ _ _
  | lseek _ _ _ => []

end HostCall

abbrev InodeTable := AList fun _ : Nat => PathBuf

structure Host where
  /-- The answer to a call, after a number of calls: an error number or a result. -/
  answer : Nat → (c : HostCall) → Except Nat c.Result
  /-- The entries of a `HashMap` in the order of its iterator. -/
  order : InodeTable → List ((_ : Nat) × PathBuf)
  order_perm : ∀ table, (order table).Perm table.entries

inductive FuseFileHandle
  | file (file : File)
  | dir (path : PathBuf)

structure InodeMap where
  nextInode : Nat
  nextFh : Nat
  inodes : InodeTable
  handles : AList fun _ : Nat => FuseFileHandle

namespace InodeMap

def new (rootDir : PathBuf) : InodeMap where
  nextInode := 2
  nextFh := 1
  inodes := (∅ : InodeTable).insert rootId rootDir
  handles := ∅

variable (host : Host) (m : InodeMap)

def getPath (inode : Nat) : Option PathBuf := m.inodes.lookup inode

def findInode (path : PathBuf) : Option Nat :=
  ((host.order m.inodes).find? fun entry => entry.2 = path).map (·.1)

def lookupOrInsert (path : PathBuf) : Nat × InodeMap :=
  match m.findInode host path with
  | some ino => (ino, m)
  | none => (m.nextInode, { m with nextInode := m.nextInode + 1, inodes := m.inodes.insert m.nextInode path })

def openHandle (handle : FuseFileHandle) : Nat × InodeMap :=
  (m.nextFh, { m with nextFh := m.nextFh + 1, handles := m.handles.insert m.nextFh handle })

def openFile (file : File) : Nat × InodeMap := m.openHandle (.file file)

def openDir (path : PathBuf) : Nat × InodeMap := m.openHandle (.dir path)

def getFile (fh : Nat) : Option File :=
  match m.handles.lookup fh with
  | some (.file file) => some file
  | _ => none

def getDir (fh : Nat) : Option PathBuf :=
  match m.handles.lookup fh with
  | some (.dir path) => some path
  | _ => none

def renamePath (oldPath newPath : PathBuf) : InodeMap :=
  match m.findInode host oldPath with
  | some ino => { m with inodes := m.inodes.insert ino newPath }
  | none => m

def release (fh : Nat) : InodeMap := { m with handles := m.handles.erase fh }

end InodeMap

structure VirtioFs where
  rootDir : PathBuf
  inodeMap : InodeMap
  /-- The calls made so far, the first one first. -/
  calls : List HostCall

def VirtioFs.new (rootDir : PathBuf) : VirtioFs := ⟨rootDir, InodeMap.new rootDir, []⟩

/-- How a handler ends early: with an error number, which is put into a reply then, or at a slice
that does not lie in the request, which panics. -/
inductive Fault
  | errno (n : Nat)
  | panicked
  deriving DecidableEq

abbrev Handler (α : Type) := Prog Fault VirtioFs α

/-- `CString::new(path.to_str().unwrap_or(default))`. -/
def cString (path default : PathBuf) : Option PathBuf :=
  let text := if path.isText then path else default
  if text.hasNul then none else some text

namespace VirtioFs

section Primitives

variable (host : Host)

def call (c : HostCall) : Handler (Except Nat c.Result) :=
  modifyGet fun fs => (host.answer fs.calls.length c, { fs with calls := fs.calls ++ [c] })

def ask (c : HostCall) : Handler c.Result := do
  match ← call host c with
  | .ok result => pure result
  | .error errno => throw (.errno errno)

def updateMap {α : Type} (f : InodeMap → α × InodeMap) : Handler α :=
  modifyGet fun fs => ((f fs.inodeMap).1, { fs with inodeMap := (f fs.inodeMap).2 })

def lookupOrInsert (path : PathBuf) : Handler Nat := updateMap fun m => m.lookupOrInsert host path

def renamePath (oldPath newPath : PathBuf) : Handler Unit :=
  updateMap fun m => ((), m.renamePath host oldPath newPath)

def orFail {α : Type} (errno : Nat) : Option α → Handler α
  | some a => pure a
  | none => throw (.errno errno)

def sliceFrom (data : Bytes) (start : Nat) : Handler Bytes :=
  if start ≤ data.length then pure (data.drop start) else throw .panicked

def slice (data : Bytes) (start stop : Nat) : Handler Bytes :=
  if start ≤ stop ∧ stop ≤ data.length then pure ((data.take stop).drop start) else throw .panicked

def getPath (inode : Nat) : Handler PathBuf := do
  orFail enoent ((← get).inodeMap.getPath inode)

def getFile (fh : Nat) : Handler File := do
  orFail ebadf ((← get).inodeMap.getFile fh)

def getDir (fh : Nat) : Handler PathBuf := do
  orFail ebadf ((← get).inodeMap.getDir fh)

def readStruct {α : Type} (layout : Layout α) (body : Bytes) : Handler α := orFail einval (layout.read? body)

def readName (data : Bytes) : Handler String := orFail einval (cstrFromBytes data)

def cName (name : String) : Handler String := orFail einval (if name.toList.contains '\x00' then none else some name)

def cPath (path : PathBuf) : Handler PathBuf := orFail einval (cString path .empty)

def chownToCaller (path : PathBuf) (uid gid : Nat) : Handler Unit := do
  match cString path .empty with
  | some text => discard (call host (.lchown text uid gid))
  | none => pure ()

def replyEntry (unique : Nat) (path : PathBuf) : Handler Bytes := do
  let metadata ← ask host (.symlinkMetadata path)
  let ino ← lookupOrInsert host path
  return makeResponse unique (entryOut ino metadata)

end Primitives

variable (host : Host) (header : InHeader) (body : Bytes)

def ok : Bytes := makeErrorResponse header.unique 0

def handleInit : Handler Bytes := do
  let _ ← readStruct initIn body
  return makeResponse header.unique initOut

def handleLookup : Handler Bytes := do
  let name ← readName body
  let parentPath ← getPath header.nodeid
  replyEntry host header.unique (parentPath.join (.ofStr name))

def handleGetattr : Handler Bytes := do
  let path ← getPath header.nodeid
  let metadata ← ask host (.symlinkMetadata path)
  return makeResponse header.unique (attrOut header.nodeid metadata)

def setattrSize (setattr : SetAttrIn) (path : PathBuf) : Handler Unit :=
  if setattr.valid &&& fattrSize ≠ 0 then do
    match ← call host (.openFile path { write := true }) with
    | .ok file => discard (call host (.setLen file setattr.size))
    | .error _ => pure ()
  else pure ()

def setattrMode (setattr : SetAttrIn) (path : PathBuf) : Handler Unit :=
  if setattr.valid &&& fattrMode ≠ 0 then discard (call host (.setPermissions path setattr.mode)) else pure ()

def setattrOwner (setattr : SetAttrIn) (path : PathBuf) : Handler Unit :=
  if setattr.valid &&& (fattrUid ||| fattrGid) ≠ 0 then
    let uid := if setattr.valid &&& fattrUid ≠ 0 then setattr.uid else 2 ^ 32 - 1
    let gid := if setattr.valid &&& fattrGid ≠ 0 then setattr.gid else 2 ^ 32 - 1
    discard (call host (.lchown ((cString path .empty).getD .empty) uid gid))
  else pure ()

def handleSetattr : Handler Bytes := do
  let setattr ← readStruct setAttrIn body
  let path ← getPath header.nodeid
  setattrSize host setattr path
  setattrMode host setattr path
  setattrOwner host setattr path
  handleGetattr host header

def openOptions (flags : Nat) : OpenOptions where
  read := flags &&& oAccmode ≠ oWronly
  write := flags &&& oAccmode ≠ oRdonly
  append := flags &&& oAppend ≠ 0
  truncate := flags &&& oTrunc ≠ 0

def handleOpen : Handler Bytes := do
  let openIn ← readStruct openIn body
  let path ← getPath header.nodeid
  let file ← ask host (.openFile path (openOptions openIn.flags))
  let fh ← updateMap fun m => m.openFile file
  return makeResponse header.unique (openOut fh)

def handleRead : Handler Bytes := do
  let readIn ← readStruct readIn body
  let file ← getFile readIn.fh
  ask host (.seek file readIn.offset)
  let buf ← ask host (.read file readIn.size)
  return makeResponse header.unique buf

def handleWrite : Handler Bytes := do
  let writeIn' ← readStruct writeIn body
  let writeData ← sliceFrom body writeIn.size
  let file ← getFile writeIn'.fh
  ask host (.seek file writeIn'.offset)
  let data ← slice writeData 0 (min writeData.length writeIn'.size)
  let n ← ask host (.write file data)
  return makeResponse header.unique (writeOut n)

def handleRelease : Handler Bytes :=
  if body.length ≥ 8 then do
    let fh ← slice body 0 8
    updateMap fun m => ((), m.release (leNat fh))
    return ok header
  else return ok header

def handleOpendir : Handler Bytes := do
  let path ← getPath header.nodeid
  let metadata ← ask host (.metadata path)
  if metadata.isDir then
    let fh ← updateMap fun m => m.openDir path
    return makeResponse header.unique (openOut fh)
  else throw (.errno enotdir)

def direntries (dirPath : PathBuf) (names : List String) : List (String × PathBuf) :=
  (".", dirPath) :: ("..", dirPath.parent.getD dirPath)
    :: names.map fun name => (name, dirPath.join (.ofStr name))

def recordSize (plus : Bool) (name : String) : Nat :=
  (if plus then EntryOut.size else 0) + Dirent.size + fuseDirentAlign name.utf8ByteSize

def record (plus : Bool) (ino entryIdx : Nat) (name : String) (metadata : Metadata) : Bytes :=
  let ftype := if metadata.isDir then dtDir else if metadata.isSymlink then dtLnk else dtReg
  (if plus then entryOut ino metadata else []) ++ dirent ino entryIdx name.utf8ByteSize ftype
    ++ name.toUTF8.data.toList ++ List.replicate (fuseDirentAlign name.utf8ByteSize - name.utf8ByteSize) 0

theorem record_length (plus : Bool) (ino entryIdx : Nat) (name : String) (metadata : Metadata) :
    (record plus ino entryIdx name metadata).length = recordSize plus name := by
  have hname : name.toUTF8.data.toList.length = name.utf8ByteSize := rfl
  have halign : name.utf8ByteSize ≤ fuseDirentAlign name.utf8ByteSize := by
    unfold fuseDirentAlign
    omega
  cases plus <;>
    simp only [record, recordSize, List.length_append, dirent_length, hname, List.length_replicate,
      entryOut_length, List.length_nil, if_true, Bool.false_eq_true, if_false] <;>
    omega

def readdirLoop (plus : Bool) (maxSize offset : Nat) : Nat → List (String × PathBuf) → Bytes → Handler Bytes
  | _, [], buf => pure buf
  | i, (name, path) :: entries, buf =>
    if i + 1 ≤ offset then readdirLoop plus maxSize offset (i + 1) entries buf
    else if buf.length + recordSize plus name > maxSize then pure buf
    else do
      match ← call host (.symlinkMetadata path) with
      | .error _ => readdirLoop plus maxSize offset (i + 1) entries buf
      | .ok metadata =>
        let ino ← lookupOrInsert host path
        readdirLoop plus maxSize offset (i + 1) entries (buf ++ record plus ino (i + 1) name metadata)

def handleReaddir (plus : Bool) : Handler Bytes := do
  let readIn ← readStruct readIn body
  let dirPath ← getDir readIn.fh
  let names ← ask host (.readDir dirPath)
  let buf ← readdirLoop host plus readIn.size readIn.offset 0 (direntries dirPath names) []
  return makeResponse header.unique buf

def handleCreate : Handler Bytes := do
  let createIn' ← readStruct createIn body
  let name ← readName (← sliceFrom body createIn.size)
  let parentPath ← getPath header.nodeid
  let childPath := parentPath.join (.ofStr name)
  let file ← ask host (.openFile childPath
    { read := true, write := true, create := true, truncate := createIn'.flags &&& oTrunc ≠ 0,
      mode := createIn'.mode })
  let metadata ← ask host (.fileMetadata file)
  chownToCaller host childPath header.uid header.gid
  let ino ← lookupOrInsert host childPath
  let fh ← updateMap fun m => m.openFile file
  return makeResponse header.unique (entryOut ino metadata ++ openOut fh)

def handleMkdir : Handler Bytes := do
  let mkdirIn' ← readStruct mkdirIn body
  let name ← readName (← sliceFrom body mkdirIn.size)
  let parentPath ← getPath header.nodeid
  let childPath := parentPath.join (.ofStr name)
  ask host (.createDir childPath mkdirIn'.mode)
  chownToCaller host childPath header.uid header.gid
  replyEntry host header.unique childPath

def removeEntry (remove : PathBuf → HostCall) : Handler Bytes := do
  let name ← readName body
  let parentPath ← getPath header.nodeid
  discard (ask host (remove (parentPath.join (.ofStr name))))
  return ok header

def handleUnlink : Handler Bytes := removeEntry host header body .removeFile

def handleRmdir : Handler Bytes := removeEntry host header body .removeDir

def handleRename : Handler Bytes := do
  let renameIn' ← readStruct renameIn body
  let namesBody ← sliceFrom body renameIn.size
  let oldName ← readName namesBody
  let newName ← readName (← sliceFrom namesBody (oldName.utf8ByteSize + 1))
  let oldParent ← getPath header.nodeid
  let newParent ← getPath renameIn'.newdir
  let oldPath := oldParent.join (.ofStr oldName)
  let newPath := newParent.join (.ofStr newName)
  ask host (.rename oldPath newPath)
  renamePath host oldPath newPath
  return ok header

def renameWithFlags (oldPath newPath : PathBuf) (flags : Nat) : Handler Unit :=
  if flags ≠ 0 then do
    let cOld ← cPath oldPath
    let cNew ← cPath newPath
    ask host (.renameat2 cOld cNew flags)
  else ask host (.rename oldPath newPath)

def handleRename2 : Handler Bytes := do
  let rename2In' ← readStruct rename2In body
  let namesBody ← sliceFrom body rename2In.size
  let oldName ← readName namesBody
  let newName ← readName (← sliceFrom namesBody (oldName.utf8ByteSize + 1))
  let oldParent ← getPath header.nodeid
  let newParent ← getPath rename2In'.newdir
  let oldPath := oldParent.join (.ofStr oldName)
  let newPath := newParent.join (.ofStr newName)
  renameWithFlags host oldPath newPath rename2In'.flags
  renamePath host oldPath newPath
  return ok header

def handleStatfs : Handler Bytes := do
  let root ← orFail einval (cString (← get).rootDir ⟨true, []⟩)
  let buf ← ask host (.statvfs root)
  return makeResponse header.unique (statfsOut buf)

def handleFlush : Handler Bytes := return ok header

def handleReadlink : Handler Bytes := do
  let path ← getPath header.nodeid
  let target ← ask host (.readLink path)
  return makeResponse header.unique target.toUTF8.data.toList

def handleSymlink : Handler Bytes := do
  let name ← readName body
  let target ← readName (← sliceFrom body (name.utf8ByteSize + 1))
  let parentPath ← getPath header.nodeid
  let linkPath := parentPath.join (.ofStr name)
  ask host (.symlink target linkPath)
  chownToCaller host linkPath header.uid header.gid
  replyEntry host header.unique linkPath

def makeNode (path : PathBuf) (mode rdev : Nat) : Handler Unit :=
  let fileType := mode &&& sIfmt
  if fileType = sIfreg ∨ fileType = 0 then
    discard (ask host (.openFile path { write := true, createNew := true, mode := mode &&& 0o7777 }))
  else do
    let cPath ← cPath path
    ask host (.mknod cPath mode rdev)

def handleMknod : Handler Bytes := do
  let mknodIn' ← readStruct mknodIn body
  let name ← readName (← sliceFrom body mknodIn.size)
  let parentPath ← getPath header.nodeid
  let childPath := parentPath.join (.ofStr name)
  makeNode host childPath mknodIn'.mode mknodIn'.rdev
  chownToCaller host childPath header.uid header.gid
  replyEntry host header.unique childPath

def handleLink : Handler Bytes := do
  let linkIn' ← readStruct linkIn body
  let name ← readName (← sliceFrom body linkIn.size)
  let oldPath ← getPath linkIn'.oldnodeid
  let newParent ← getPath header.nodeid
  let newPath := newParent.join (.ofStr name)
  ask host (.hardLink oldPath newPath)
  replyEntry host header.unique newPath

def handleGetxattr : Handler Bytes := do
  let getxattrIn' ← readStruct getxattrIn body
  let name ← readName (← sliceFrom body getxattrIn.size)
  let path ← getPath header.nodeid
  let path ← cPath path
  let name ← cName name
  if getxattrIn'.size = 0 then
    let size ← ask host (.lgetxattrSize path name)
    return makeResponse header.unique (getxattrOut size)
  else
    let buf ← ask host (.lgetxattr path name getxattrIn'.size)
    return makeResponse header.unique buf

def handleSetxattr : Handler Bytes := do
  let setxattrIn' ← readStruct setxattrIn body
  let rest ← sliceFrom body setxattrIn.size
  let name ← readName rest
  let valueStart := name.utf8ByteSize + 1
  let valueEnd := valueStart + setxattrIn'.size
  orFail einval (if rest.length < valueEnd then none else some ())
  let value ← slice rest valueStart valueEnd
  let path ← getPath header.nodeid
  let path ← cPath path
  let name ← cName name
  ask host (.lsetxattr path name value setxattrIn'.flags)
  return ok header

def handleListxattr : Handler Bytes := do
  let getxattrIn' ← readStruct getxattrIn body
  let path ← getPath header.nodeid
  let path ← cPath path
  if getxattrIn'.size = 0 then
    let size ← ask host (.llistxattrSize path)
    return makeResponse header.unique (getxattrOut size)
  else
    let buf ← ask host (.llistxattr path getxattrIn'.size)
    return makeResponse header.unique buf

def handleRemovexattr : Handler Bytes := do
  let name ← readName body
  let path ← getPath header.nodeid
  let path ← cPath path
  let name ← cName name
  ask host (.lremovexattr path name)
  return ok header

def handleAccess : Handler Bytes := do
  let accessIn' ← readStruct accessIn body
  let path ← getPath header.nodeid
  let path ← cPath path
  ask host (.access path accessIn'.mask)
  return ok header

def handleFallocate : Handler Bytes := do
  let fallocIn ← readStruct fallocateIn body
  let file ← getFile fallocIn.fh
  ask host (.fallocate file fallocIn.mode fallocIn.offset fallocIn.length)
  return ok header

def handleLseek : Handler Bytes := do
  let lseekIn' ← readStruct lseekIn body
  let file ← getFile lseekIn'.fh
  let offset ← ask host (.lseek file lseekIn'.offset lseekIn'.whence)
  return makeResponse header.unique (lseekOut offset)

def handleOpcode : Opcode → Handler Bytes
  | .init => handleInit header body
  | .lookup => handleLookup host header body
  | .getattr => handleGetattr host header
  | .setattr => handleSetattr host header body
  | .open => handleOpen host header body
  | .read => handleRead host header body
  | .write => handleWrite host header body
  | .release | .releasedir => handleRelease header body
  | .opendir => handleOpendir host header
  | .readdir => handleReaddir host header body false
  | .readdirplus => handleReaddir host header body true
  | .create => handleCreate host header body
  | .mkdir => handleMkdir host header body
  | .unlink => handleUnlink host header body
  | .rmdir => handleRmdir host header body
  | .rename => handleRename host header body
  | .rename2 => handleRename2 host header body
  | .statfs => handleStatfs host header
  | .flush | .fsync | .fsyncdir | .syncfs => handleFlush header
  | .forget | .batchForget => pure []
  | .readlink => handleReadlink host header
  | .symlink => handleSymlink host header body
  | .mknod => handleMknod host header body
  | .link => handleLink host header body
  | .getxattr => handleGetxattr host header body
  | .setxattr => handleSetxattr host header body
  | .listxattr => handleListxattr host header body
  | .removexattr => handleRemovexattr host header body
  | .access => handleAccess host header body
  | .fallocate => handleFallocate host header body
  | .lseek => handleLseek host header body

def dispatch (request : Bytes) : Handler Bytes := do
  let body ← sliceFrom request InHeader.size
  match Opcode.ofNat? (InHeader.parse request).opcode with
  | some opcode => handleOpcode host (InHeader.parse request) body opcode
  | none => throw (.errno enosys)

/-- What is sent for the outcome of a handler: nothing if it panicked. -/
def reply (unique : Nat) : Except Fault Bytes → Option Bytes
  | .ok response => some response
  | .error (.errno errno) => some (makeErrorResponse unique (-errno))
  | .error .panicked => none

def handleFuseRequest (request : Bytes) (fs : VirtioFs) : Option Bytes × VirtioFs :=
  if request.length < InHeader.size then (some (makeErrorResponse 0 (-einval)), fs)
  else
    let outcome := (dispatch host request).exec fs
    (reply (InHeader.parse request).unique outcome.1, outcome.2)

end VirtioFs

end CloneVmm.Virtio
