import CloneVmm.Lib.Bytes

/-!
`virtio/fs.rs`: the FUSE messages. Structures are read from and written to bytes in the layout of
`repr(C)`, which none of them needs padding for.
-/

namespace CloneVmm.Virtio

open CloneVmm.Lib

abbrev Bytes := List UInt8

namespace Fuse

def rootId : Nat := 1

def enoent : Nat := 2
def ebadf : Nat := 9
def enotdir : Nat := 20
def einval : Nat := 22
def enosys : Nat := 38

inductive Opcode
  | lookup | forget | getattr | setattr | readlink | symlink | mknod | mkdir | unlink | rmdir | rename
  | link | open | read | write | statfs | release | fsync | setxattr | getxattr | listxattr
  | removexattr | flush | init | opendir | readdir | releasedir | fsyncdir | access | create
  | batchForget | fallocate | readdirplus | rename2 | lseek | syncfs
  deriving DecidableEq

def Opcode.ofNat? : Nat → Option Opcode
  | 1 => some .lookup
  | 2 => some .forget
  | 3 => some .getattr
  | 4 => some .setattr
  | 5 => some .readlink
  | 6 => some .symlink
  | 8 => some .mknod
  | 9 => some .mkdir
  | 10 => some .unlink
  | 11 => some .rmdir
  | 12 => some .rename
  | 13 => some .link
  | 14 => some .open
  | 15 => some .read
  | 16 => some .write
  | 17 => some .statfs
  | 18 => some .release
  | 20 => some .fsync
  | 21 => some .setxattr
  | 22 => some .getxattr
  | 23 => some .listxattr
  | 24 => some .removexattr
  | 25 => some .flush
  | 26 => some .init
  | 27 => some .opendir
  | 28 => some .readdir
  | 29 => some .releasedir
  | 30 => some .fsyncdir
  | 34 => some .access
  | 35 => some .create
  | 42 => some .batchForget
  | 43 => some .fallocate
  | 44 => some .readdirplus
  | 45 => some .rename2
  | 46 => some .lseek
  | 50 => some .syncfs
  | _ => none

def doReaddirplus : Nat := 1 <<< 13

def fattrMode : Nat := 1 <<< 0
def fattrUid : Nat := 1 <<< 1
def fattrGid : Nat := 1 <<< 2
def fattrSize : Nat := 1 <<< 3

def oAccmode : Nat := 3
def oRdonly : Nat := 0
def oWronly : Nat := 1
def oTrunc : Nat := 0o1000
def oAppend : Nat := 0o2000

def sIfmt : Nat := 0o170000
def sIfdir : Nat := 0o040000
def sIfreg : Nat := 0o100000
def sIflnk : Nat := 0o120000

def dtDir : Nat := 4
def dtReg : Nat := 8
def dtLnk : Nat := 10

def u32At (bytes : Bytes) (off : Nat) : Nat := leNat ((bytes.drop off).take 4)

def u64At (bytes : Bytes) (off : Nat) : Nat := leNat ((bytes.drop off).take 8)

structure InHeader where
  opcode : Nat
  unique : Nat
  nodeid : Nat
  uid : Nat
  gid : Nat

def InHeader.size : Nat := 40

def InHeader.parse (request : Bytes) : InHeader where
  opcode := u32At request 4
  unique := u64At request 8
  nodeid := u64At request 16
  uid := u32At request 24
  gid := u32At request 28

structure Layout (α : Type) where
  size : Nat
  parse : Bytes → α

def Layout.read? {α : Type} (layout : Layout α) (body : Bytes) : Option α :=
  if body.length < layout.size then none else some (layout.parse body)

def initIn : Layout Unit := ⟨16, fun _ => ()⟩

structure SetAttrIn where
  valid : Nat
  size : Nat
  mode : Nat
  uid : Nat
  gid : Nat

def setAttrIn : Layout SetAttrIn := ⟨88, fun b => ⟨u32At b 0, u64At b 16, u32At b 68, u32At b 76, u32At b 80⟩⟩

structure OpenIn where
  flags : Nat

def openIn : Layout OpenIn := ⟨8, fun b => ⟨u32At b 0⟩⟩

structure ReadIn where
  fh : Nat
  offset : Nat
  size : Nat

def readIn : Layout ReadIn := ⟨40, fun b => ⟨u64At b 0, u64At b 8, u32At b 16⟩⟩

def writeIn : Layout ReadIn := readIn

structure MkdirIn where
  mode : Nat

def mkdirIn : Layout MkdirIn := ⟨8, fun b => ⟨u32At b 0⟩⟩

structure CreateIn where
  flags : Nat
  mode : Nat

def createIn : Layout CreateIn := ⟨16, fun b => ⟨u32At b 0, u32At b 4⟩⟩

structure RenameIn where
  newdir : Nat

def renameIn : Layout RenameIn := ⟨8, fun b => ⟨u64At b 0⟩⟩

structure Rename2In where
  newdir : Nat
  flags : Nat

def rename2In : Layout Rename2In := ⟨16, fun b => ⟨u64At b 0, u32At b 8⟩⟩

structure MknodIn where
  mode : Nat
  rdev : Nat

def mknodIn : Layout MknodIn := ⟨16, fun b => ⟨u32At b 0, u32At b 4⟩⟩

structure LinkIn where
  oldnodeid : Nat

def linkIn : Layout LinkIn := ⟨8, fun b => ⟨u64At b 0⟩⟩

structure GetxattrIn where
  size : Nat

def getxattrIn : Layout GetxattrIn := ⟨8, fun b => ⟨u32At b 0⟩⟩

structure SetxattrIn where
  size : Nat
  flags : Nat

def setxattrIn : Layout SetxattrIn := ⟨8, fun b => ⟨u32At b 0, u32At b 4⟩⟩

structure AccessIn where
  mask : Nat

def accessIn : Layout AccessIn := ⟨8, fun b => ⟨u32At b 0⟩⟩

structure FallocateIn where
  fh : Nat
  offset : Nat
  length : Nat
  mode : Nat

def fallocateIn : Layout FallocateIn := ⟨32, fun b => ⟨u64At b 0, u64At b 8, u64At b 16, u32At b 24⟩⟩

structure LseekIn where
  fh : Nat
  offset : Nat
  whence : Nat

def lseekIn : Layout LseekIn := ⟨24, fun b => ⟨u64At b 0, u64At b 8, u32At b 16⟩⟩

def cstrFromBytes (data : Bytes) : Option String :=
  match data.findIdx? (· == 0) with
  | none => none
  | some nulPos => String.fromUTF8? ⟨(data.take nulPos).toArray⟩

def u16 (v : Nat) : Bytes := leBytes 2 v

def u32 (v : Nat) : Bytes := leBytes 4 v

def u64 (v : Nat) : Bytes := leBytes 8 v

def i32 (v : Int) : Bytes := leBytes 4 (v % 2 ^ 32).toNat

def i64 (v : Int) : Bytes := leBytes 8 (v % 2 ^ 64).toNat

def OutHeader.size : Nat := 16

def outHeader (len : Nat) (error : Int) (unique : Nat) : Bytes := u32 len ++ i32 error ++ u64 unique

def makeErrorResponse (unique : Nat) (error : Int) : Bytes := outHeader OutHeader.size error unique

def makeResponse (unique : Nat) (payload : Bytes) : Bytes :=
  outHeader (OutHeader.size + payload.length) 0 unique ++ payload

structure Metadata where
  len : Nat
  blocks : Nat
  atime : Int
  mtime : Int
  ctime : Int
  atimeNsec : Int
  mtimeNsec : Int
  ctimeNsec : Int
  mode : Nat
  nlink : Nat
  uid : Nat
  gid : Nat
  rdev : Nat
  blksize : Nat

def Metadata.isDir (m : Metadata) : Bool := m.mode &&& sIfmt == sIfdir

def Metadata.isSymlink (m : Metadata) : Bool := m.mode &&& sIfmt == sIflnk

def metadataToFuseAttr (ino : Nat) (m : Metadata) : Bytes :=
  u64 ino ++ u64 m.len ++ u64 m.blocks ++ i64 m.atime ++ i64 m.mtime ++ i64 m.ctime
    ++ i32 m.atimeNsec ++ i32 m.mtimeNsec ++ i32 m.ctimeNsec ++ u32 m.mode ++ u32 m.nlink
    ++ u32 m.uid ++ u32 m.gid ++ u32 m.rdev ++ u32 m.blksize ++ u32 0

def EntryOut.size : Nat := 128

def entryOut (ino : Nat) (m : Metadata) : Bytes :=
  u64 ino ++ u64 0 ++ u64 1 ++ u64 1 ++ u32 0 ++ u32 0 ++ metadataToFuseAttr ino m

def attrOut (ino : Nat) (m : Metadata) : Bytes := u64 1 ++ u32 0 ++ u32 0 ++ metadataToFuseAttr ino m

def openOut (fh : Nat) : Bytes := u64 fh ++ u32 0 ++ u32 0

def writeOut (size : Nat) : Bytes := u32 size ++ u32 0

def getxattrOut (size : Nat) : Bytes := u32 size ++ u32 0

def lseekOut (offset : Nat) : Bytes := u64 offset

def initOut : Bytes :=
  u32 7 ++ u32 31 ++ u32 131072 ++ u32 doReaddirplus ++ u16 16 ++ u16 12 ++ u32 131072 ++ u32 1
    ++ u16 32 ++ u16 0 ++ u32 0 ++ List.replicate 28 0

structure StatVfs where
  blocks : Nat
  bfree : Nat
  bavail : Nat
  files : Nat
  ffree : Nat
  bsize : Nat
  namemax : Nat
  frsize : Nat

def statfsOut (s : StatVfs) : Bytes :=
  u64 s.blocks ++ u64 s.bfree ++ u64 s.bavail ++ u64 s.files ++ u64 s.ffree ++ u32 s.bsize
    ++ u32 s.namemax ++ u32 s.frsize ++ u32 0 ++ List.replicate 24 0

def Dirent.size : Nat := 24

def dirent (ino off namelen type : Nat) : Bytes := u64 ino ++ u64 off ++ u32 namelen ++ u32 type

def fuseDirentAlign (x : Nat) : Nat := (x + 7) / 8 * 8

theorem entryOut_length (ino : Nat) (m : Metadata) : (entryOut ino m).length = EntryOut.size := by
  simp [entryOut, metadataToFuseAttr, u64, u32, i64, i32, EntryOut.size]

theorem dirent_length (ino off namelen type : Nat) : (dirent ino off namelen type).length = Dirent.size := by
  simp [dirent, u64, u32, Dirent.size]

theorem cstrFromBytes_eq_some {data : Bytes} {s : String} (h : cstrFromBytes data = some s) :
    ∃ nulPos, data.findIdx? (· == 0) = some nulPos ∧ s.toByteArray = ⟨(data.take nulPos).toArray⟩ := by
  unfold cstrFromBytes at h
  cases hpos : data.findIdx? (· == 0) with
  | none =>
    rw [hpos] at h
    cases h
  | some nulPos =>
    refine ⟨nulPos, rfl, ?_⟩
    rw [hpos] at h
    dsimp only at h
    unfold String.fromUTF8? at h
    split at h
    · cases h
      rfl
    · cases h

theorem nul_notMem_of_cstrFromBytes {data : Bytes} {s : String} (h : cstrFromBytes data = some s) :
    '\x00' ∉ s.toList := by
  obtain ⟨nulPos, hpos, hbytes⟩ := cstrFromBytes_eq_some h
  intro hmem
  have h0 : (0 : UInt8) ∈ data.take nulPos := by
    have hflat : s.toList.flatMap String.utf8EncodeChar = data.take nulPos := by
      have henc := congrArg ByteArray.data (String.utf8Encode_toList (b := s))
      rw [hbytes, List.utf8Encode, List.data_toByteArray] at henc
      simpa using henc
    rw [← hflat, List.mem_flatMap]
    exact ⟨_, hmem, by decide⟩
  obtain ⟨i, hi, h0⟩ := List.mem_take_iff_getElem.mp h0
  have := (List.findIdx?_eq_some_iff_getElem.mp hpos).2.2 i (by omega)
  simp [h0] at this

theorem size_lt_of_cstrFromBytes {data : Bytes} {name : String} (h : cstrFromBytes data = some name) :
    name.utf8ByteSize + 1 ≤ data.length := by
  obtain ⟨nulPos, hpos, hbytes⟩ := cstrFromBytes_eq_some h
  have hlt : nulPos < data.length := (List.findIdx?_eq_some_iff_getElem.mp hpos).1
  have hsize : name.utf8ByteSize = (data.take nulPos).length := congrArg ByteArray.size hbytes
  rw [hsize, List.length_take]
  omega

end Fuse

end CloneVmm.Virtio
