import CloneVmm.Lib.Run
import CloneVmm.Virtio.SafePaths

namespace CloneVmm.Virtio

open CloneVmm.Lib Fuse Prog

variable {host : Host} {root : PathBuf} {fs : VirtioFs}

def joinedNames (header : InHeader) (body : Bytes) : Opcode → Option (List (Nat × Option String))
  | .lookup | .unlink | .rmdir => do
    let name ← cstrFromBytes body
    return [(header.nodeid, some name)]
  | .symlink => do
    let name ← cstrFromBytes body
    let _ ← cstrFromBytes (body.drop (name.utf8ByteSize + 1))
    return [(header.nodeid, some name)]
  | .create => do
    let _ ← createIn.read? body
    let name ← cstrFromBytes (body.drop createIn.size)
    return [(header.nodeid, some name)]
  | .mkdir => do
    let _ ← mkdirIn.read? body
    let name ← cstrFromBytes (body.drop mkdirIn.size)
    return [(header.nodeid, some name)]
  | .mknod => do
    let _ ← mknodIn.read? body
    let name ← cstrFromBytes (body.drop mknodIn.size)
    return [(header.nodeid, some name)]
  | .link => do
    let linkIn' ← linkIn.read? body
    let name ← cstrFromBytes (body.drop linkIn.size)
    return [(linkIn'.oldnodeid, none), (header.nodeid, some name)]
  | .rename => do
    let renameIn' ← renameIn.read? body
    let oldName ← cstrFromBytes (body.drop renameIn.size)
    let newName ← cstrFromBytes ((body.drop renameIn.size).drop (oldName.utf8ByteSize + 1))
    return [(header.nodeid, some oldName), (renameIn'.newdir, some newName)]
  | .rename2 => do
    let rename2In' ← rename2In.read? body
    let oldName ← cstrFromBytes (body.drop rename2In.size)
    let newName ← cstrFromBytes ((body.drop rename2In.size).drop (oldName.utf8ByteSize + 1))
    return [(header.nodeid, some oldName), (rename2In'.newdir, some newName)]
  | _ => none

def NamesOk (root : PathBuf) (fs : VirtioFs) (header : InHeader) (body : Bytes) (opcode : Opcode) : Prop :=
  ∀ joined, joinedNames header body opcode = some joined →
    (∀ entry ∈ joined, (fs.inodeMap.getPath entry.1).isSome) →
    ∀ entry ∈ joined, ∀ name ∈ entry.2, NameOk root name

theorem NamesOk.nameOk {header : InHeader} {body : Bytes} {opcode : Opcode} {ino : Nat} {name : String}
    (h : NamesOk root fs header body opcode) (joined : List (Nat × Option String))
    (hjoined : joinedNames header body opcode = some joined)
    (hknown : ∀ entry ∈ joined, (fs.inodeMap.getPath entry.1).isSome) (hmem : (ino, some name) ∈ joined) :
    NameOk root name :=
  h joined hjoined hknown (ino, some name) hmem name rfl

def ListingOk (host : Host) (root : PathBuf) (fs : VirtioFs) (body : Bytes) (plus : Bool) : Prop :=
  ∀ readIn', readIn.read? body = some readIn' → fs.inodeMap.getDir readIn'.fh = some root → root.comps ≠ [] →
    (∃ errno, host.answer fs.calls.length (.readDir root) = .error errno) ∨
    2 ≤ readIn'.offset ∨
    readIn'.size < VirtioFs.recordSize plus ".." ∨
    (readIn'.offset = 0 ∧ readIn'.size < VirtioFs.recordSize plus "." + VirtioFs.recordSize plus ".." ∧
      ∃ metadata : Metadata, host.answer (fs.calls.length + 1) (.symlinkMetadata root) = .ok metadata)

def RequestOk (host : Host) (root : PathBuf) (fs : VirtioFs) (request : Bytes) : Prop :=
  InHeader.size ≤ request.length →
    ∀ opcode, Opcode.ofNat? (InHeader.parse request).opcode = some opcode →
      NamesOk root fs (InHeader.parse request) (request.drop InHeader.size) opcode ∧
      (opcode = .readdir → ListingOk host root fs (request.drop InHeader.size) false) ∧
      (opcode = .readdirplus → ListingOk host root fs (request.drop InHeader.size) true)

namespace VirtioFs

section Handlers

variable {header : InHeader} {body : Bytes} {p q : PathBuf}

theorem handleInit_ends (h : fs.Safe root) :
    (handleInit header body).Ends (Safe root) (fun _ => True) fs := by
  apply ends_bind_of_lookup (exec_orFail _ _ _) h
  intro init hinit
  exact ends_pure h trivial

theorem handleLookup_ends (h : fs.Safe root) (hnames : NamesOk root fs header body .lookup) :
    (handleLookup host header body).Ends (Safe root) (fun _ => True) fs := by
  apply ends_bind_of_lookup (exec_orFail _ _ _) h
  intro name hname
  apply ends_bind_of_lookup (exec_getPath _ _) h
  intro p hp
  have hok := hnames.nameOk [(header.nodeid, some name)] (by simp [joinedNames, hname]) (by simp [hp])
    List.mem_cons_self
  exact replyEntry_keeps (h.join hp hname hok) header.unique fs h

theorem handleGetattr_keeps : (handleGetattr host header).Keeps (Safe root) fun _ => True := by
  intro fs h
  apply getPath_bind h
  intro p _ hsafe
  exact askReply_keeps host (by simpa [HostCall.paths] using hsafe.1) fs h

theorem setattrSize_keeps (setattr : SetAttrIn) (hp : SafePath root p) :
    (setattrSize host setattr p).Keeps (Safe root) fun _ => True := by
  apply Keeps.ite
  · apply (call_keeps host (by simpa [HostCall.paths] using hp.1)).bind
    rintro (errno | file) _
    · exact keeps_pure trivial
    · exact discard_keeps (call_keeps host (by simp [HostCall.paths]))
  · exact keeps_pure trivial

theorem setattrMode_keeps (setattr : SetAttrIn) (hp : SafePath root p) :
    (setattrMode host setattr p).Keeps (Safe root) fun _ => True := by
  apply Keeps.ite
  · exact discard_keeps (call_keeps host (by simpa [HostCall.paths] using hp.1))
  · exact keeps_pure trivial

theorem setattrOwner_keeps (setattr : SetAttrIn) (hp : SafePath root p) :
    (setattrOwner host setattr p).Keeps (Safe root) fun _ => True := by
  unfold setattrOwner
  rw [hp.cString_eq]
  apply Keeps.ite
  · exact discard_keeps (call_keeps host (by simpa [HostCall.paths] using hp.1))
  · exact keeps_pure trivial

theorem handleSetattr_ends (h : fs.Safe root) :
    (handleSetattr host header body).Ends (Safe root) (fun _ => True) fs := by
  apply ends_bind_of_lookup (exec_orFail _ _ _) h
  intro setattr _
  apply getPath_bind h
  intro p _ hsafe
  apply (setattrSize_keeps setattr hsafe fs h).bind
  intro _ _
  apply (setattrMode_keeps setattr hsafe).bind
  intro _ _
  apply (setattrOwner_keeps setattr hsafe).bind
  intro _ _
  exact handleGetattr_keeps

theorem handleOpen_ends (h : fs.Safe root) :
    (handleOpen host header body).Ends (Safe root) (fun _ => True) fs := by
  apply ends_bind_of_lookup (exec_orFail _ _ _) h
  intro openIn _
  apply getPath_bind h
  intro p _ hsafe
  apply (ask_keeps host (by simpa [HostCall.paths] using hsafe.1) fs h).bind
  intro file _
  apply (updateMap_keeps fun m hm => hm.openHandle (by simp)).bind
  intro fh _
  exact keeps_pure trivial

theorem handleRead_ends (h : fs.Safe root) :
    (handleRead host header body).Ends (Safe root) (fun _ => True) fs := by
  apply ends_bind_of_lookup (exec_orFail _ _ _) h
  intro readIn _
  apply ends_bind_of_lookup (exec_getFile _ _) h
  intro file _
  apply (ask_keeps host (by simp [HostCall.paths]) fs h).bind
  intro _ _
  exact askReply_keeps host (by simp [HostCall.paths])

theorem handleWrite_ends (h : fs.Safe root) :
    (handleWrite host header body).Ends (Safe root) (fun _ => True) fs := by
  apply ends_bind_of_lookup (exec_orFail _ _ _) h
  intro writeIn _
  apply sliceFrom_bind h
  apply ends_bind_of_lookup (exec_getFile _ _) h
  intro file _
  apply (ask_keeps host (by simp [HostCall.paths]) fs h).bind
  intro _ _
  apply (slice_keeps _ _ _).bind
  intro data _
  exact askReply_keeps host (by simp [HostCall.paths])

theorem handleRelease_keeps : (handleRelease header body).Keeps (Safe root) fun _ => True := by
  apply Keeps.ite
  · apply (slice_keeps _ _ _).bind
    intro fh _
    apply (updateMap_keeps fun m hm => hm.release _).bind
    intro _ _
    exact keeps_pure trivial
  · exact keeps_pure trivial

theorem handleOpendir_ends (h : fs.Safe root) :
    (handleOpendir host header).Ends (Safe root) (fun _ => True) fs := by
  apply getPath_bind h
  intro p _ hsafe
  apply (ask_keeps host (by simpa [HostCall.paths] using hsafe.1) fs h).bind
  intro metadata _
  apply Keeps.ite
  · apply (updateMap_keeps fun m hm => hm.openHandle (by simpa using hsafe)).bind
    intro fh _
    exact keeps_pure trivial
  · exact fun fs h => ends_throw h

theorem handleCreate_ends (h : fs.Safe root) (hnames : NamesOk root fs header body .create) :
    (handleCreate host header body).Ends (Safe root) (fun _ => True) fs := by
  apply ends_bind_of_lookup (exec_orFail _ _ _) h
  intro createIn' hcreate
  apply sliceFrom_bind h
  apply ends_bind_of_lookup (exec_orFail _ _ _) h
  intro name hname
  apply ends_bind_of_lookup (exec_getPath _ _) h
  intro p hp
  have hok := hnames.nameOk [(header.nodeid, some name)] (by simp [joinedNames, hcreate, hname])
    (by simp [hp]) List.mem_cons_self
  have hsafe := h.join hp hname hok
  apply (ask_keeps host (by simpa [HostCall.paths] using hsafe.1) fs h).bind
  intro file _
  apply (ask_keeps host (by simp [HostCall.paths])).bind
  intro metadata _
  apply (chownToCaller_keeps hsafe _ _).bind
  intro _ _
  apply (lookupOrInsert_keeps hsafe).bind
  intro ino _
  apply (updateMap_keeps fun m hm => hm.openHandle (by simp)).bind
  intro fh _
  exact keeps_pure trivial

theorem handleMkdir_ends (h : fs.Safe root) (hnames : NamesOk root fs header body .mkdir) :
    (handleMkdir host header body).Ends (Safe root) (fun _ => True) fs := by
  apply ends_bind_of_lookup (exec_orFail _ _ _) h
  intro mkdirIn' hmkdir
  apply sliceFrom_bind h
  apply ends_bind_of_lookup (exec_orFail _ _ _) h
  intro name hname
  apply ends_bind_of_lookup (exec_getPath _ _) h
  intro p hp
  have hok := hnames.nameOk [(header.nodeid, some name)] (by simp [joinedNames, hmkdir, hname])
    (by simp [hp]) List.mem_cons_self
  have hsafe := h.join hp hname hok
  apply (ask_keeps host (by simpa [HostCall.paths] using hsafe.1) fs h).bind
  intro _ _
  apply (chownToCaller_keeps hsafe _ _).bind
  intro _ _
  exact replyEntry_keeps hsafe _

theorem removeEntry_ends {opcode : Opcode} {remove : PathBuf → HostCall} (h : fs.Safe root)
    (hnames : NamesOk root fs header body opcode) (hremove : ∀ p, (remove p).paths = [p])
    (hjoined : ∀ name, cstrFromBytes body = some name →
      joinedNames header body opcode = some [(header.nodeid, some name)]) :
    (removeEntry host header body remove).Ends (Safe root) (fun _ => True) fs := by
  apply ends_bind_of_lookup (exec_orFail _ _ _) h
  intro name hname
  apply ends_bind_of_lookup (exec_getPath _ _) h
  intro p hp
  have hok := hnames.nameOk _ (hjoined name hname) (by simp [hp]) List.mem_cons_self
  have hsafe := h.join hp hname hok
  apply (discard_keeps (ask_keeps host (by simpa [hremove] using hsafe.1)) fs h).bind
  intro _ _
  exact keeps_pure trivial

theorem handleRename_ends (h : fs.Safe root) (hnames : NamesOk root fs header body .rename) :
    (handleRename host header body).Ends (Safe root) (fun _ => True) fs := by
  apply ends_bind_of_lookup (exec_orFail _ _ _) h
  intro renameIn' hrename
  apply sliceFrom_bind h
  apply ends_bind_of_lookup (exec_orFail _ _ _) h
  intro oldName hold
  apply sliceFrom_bind h
  apply ends_bind_of_lookup (exec_orFail _ _ _) h
  intro newName hnew
  apply ends_bind_of_lookup (exec_getPath _ _) h
  intro oldParent hp
  apply ends_bind_of_lookup (exec_getPath _ _) h
  intro newParent hq
  have hok := hnames [(header.nodeid, some oldName), (renameIn'.newdir, some newName)]
    (by simp [joinedNames, hrename, hold, hnew, -List.drop_drop]) (by simp [hp, hq])
  have hsafe := h.join hp hold (hok (header.nodeid, some oldName) (by simp) oldName rfl)
  have hsafe' := h.join hq hnew (hok (renameIn'.newdir, some newName) (by simp) newName rfl)
  apply (ask_keeps host (by simpa [HostCall.paths] using ⟨hsafe.1, hsafe'.1⟩) fs h).bind
  intro _ _
  apply (renamePath_keeps hsafe').bind
  intro _ _
  exact keeps_pure trivial

theorem renameWithFlags_keeps (hp : SafePath root p) (hq : SafePath root q) (flags : Nat) :
    (renameWithFlags host p q flags).Keeps (Safe root) fun _ => True := by
  have hpaths : root.Inside p ∧ root.Inside q := ⟨hp.1, hq.1⟩
  apply Keeps.ite
  · apply cPath_bind_keeps hp
    apply cPath_bind_keeps hq
    exact fun fs h => (ask_keeps host (by simpa [HostCall.paths] using hpaths) fs h).mono fun _ _ => trivial
  · exact fun fs h => (ask_keeps host (by simpa [HostCall.paths] using hpaths) fs h).mono fun _ _ => trivial

theorem handleRename2_ends (h : fs.Safe root) (hnames : NamesOk root fs header body .rename2) :
    (handleRename2 host header body).Ends (Safe root) (fun _ => True) fs := by
  apply ends_bind_of_lookup (exec_orFail _ _ _) h
  intro rename2In' hrename
  apply sliceFrom_bind h
  apply ends_bind_of_lookup (exec_orFail _ _ _) h
  intro oldName hold
  apply sliceFrom_bind h
  apply ends_bind_of_lookup (exec_orFail _ _ _) h
  intro newName hnew
  apply ends_bind_of_lookup (exec_getPath _ _) h
  intro oldParent hp
  apply ends_bind_of_lookup (exec_getPath _ _) h
  intro newParent hq
  have hok := hnames [(header.nodeid, some oldName), (rename2In'.newdir, some newName)]
    (by simp [joinedNames, hrename, hold, hnew, -List.drop_drop]) (by simp [hp, hq])
  have hsafe := h.join hp hold (hok (header.nodeid, some oldName) (by simp) oldName rfl)
  have hsafe' := h.join hq hnew (hok (rename2In'.newdir, some newName) (by simp) newName rfl)
  apply (renameWithFlags_keeps hsafe hsafe' rename2In'.flags fs h).bind
  intro _ _
  apply (renamePath_keeps hsafe').bind
  intro _ _
  exact keeps_pure trivial

theorem handleStatfs_ends (h : fs.Safe root) :
    (handleStatfs host header).Ends (Safe root) (fun _ => True) fs := by
  have hroot : SafePath root root := ⟨PathBuf.Inside.refl root, h.rootClean⟩
  apply ends_bind_of_exec (a := fs) (t := fs) rfl
  apply ends_bind_of_lookup (exec_orFail _ _ _) h
  intro p hp
  rw [h.rootDir, hroot.cString_eq] at hp
  obtain rfl := Option.some.inj hp
  exact askReply_keeps host (by simpa [HostCall.paths] using hroot.1) fs h

theorem handleReadlink_ends (h : fs.Safe root) :
    (handleReadlink host header).Ends (Safe root) (fun _ => True) fs := by
  apply getPath_bind h
  intro p _ hsafe
  exact askReply_keeps host (by simpa [HostCall.paths] using hsafe.1) fs h

theorem handleSymlink_ends (h : fs.Safe root) (hnames : NamesOk root fs header body .symlink) :
    (handleSymlink host header body).Ends (Safe root) (fun _ => True) fs := by
  apply ends_bind_of_lookup (exec_orFail _ _ _) h
  intro name hname
  apply sliceFrom_bind h
  apply ends_bind_of_lookup (exec_orFail _ _ _) h
  intro target htarget
  apply ends_bind_of_lookup (exec_getPath _ _) h
  intro p hp
  have hok := hnames.nameOk [(header.nodeid, some name)] (by simp [joinedNames, hname, htarget])
    (by simp [hp]) List.mem_cons_self
  have hsafe := h.join hp hname hok
  apply (ask_keeps host (by simpa [HostCall.paths] using hsafe.1) fs h).bind
  intro _ _
  apply (chownToCaller_keeps hsafe _ _).bind
  intro _ _
  exact replyEntry_keeps hsafe _

theorem makeNode_keeps (hp : SafePath root p) (mode rdev : Nat) :
    (makeNode host p mode rdev).Keeps (Safe root) fun _ => True := by
  apply Keeps.ite
  · exact discard_keeps (ask_keeps host (by simpa [HostCall.paths] using hp.1))
  · apply cPath_bind_keeps hp
    exact fun fs h => (ask_keeps host (by simpa [HostCall.paths] using hp.1) fs h).mono fun _ _ => trivial

theorem handleMknod_ends (h : fs.Safe root) (hnames : NamesOk root fs header body .mknod) :
    (handleMknod host header body).Ends (Safe root) (fun _ => True) fs := by
  apply ends_bind_of_lookup (exec_orFail _ _ _) h
  intro mknodIn' hmknod
  apply sliceFrom_bind h
  apply ends_bind_of_lookup (exec_orFail _ _ _) h
  intro name hname
  apply ends_bind_of_lookup (exec_getPath _ _) h
  intro p hp
  have hok := hnames.nameOk [(header.nodeid, some name)] (by simp [joinedNames, hmknod, hname])
    (by simp [hp]) List.mem_cons_self
  have hsafe := h.join hp hname hok
  apply (makeNode_keeps hsafe _ _ fs h).bind
  intro _ _
  apply (chownToCaller_keeps hsafe _ _).bind
  intro _ _
  exact replyEntry_keeps hsafe _

theorem handleLink_ends (h : fs.Safe root) (hnames : NamesOk root fs header body .link) :
    (handleLink host header body).Ends (Safe root) (fun _ => True) fs := by
  apply ends_bind_of_lookup (exec_orFail _ _ _) h
  intro linkIn' hlink
  apply sliceFrom_bind h
  apply ends_bind_of_lookup (exec_orFail _ _ _) h
  intro name hname
  apply ends_bind_of_lookup (exec_getPath _ _) h
  intro oldPath hp
  apply ends_bind_of_lookup (exec_getPath _ _) h
  intro newParent hq
  have hok := hnames.nameOk [(linkIn'.oldnodeid, none), (header.nodeid, some name)]
    (by simp [joinedNames, hlink, hname]) (by simp [hp, hq]) (List.mem_cons_of_mem _ List.mem_cons_self)
  have hold := h.inodeMap.inodes _ oldPath hp
  have hsafe := h.join hq hname hok
  apply (ask_keeps host (by simpa [HostCall.paths] using ⟨hold.1, hsafe.1⟩) fs h).bind
  intro _ _
  exact replyEntry_keeps hsafe _

theorem handleGetxattr_ends (h : fs.Safe root) :
    (handleGetxattr host header body).Ends (Safe root) (fun _ => True) fs := by
  apply ends_bind_of_lookup (exec_orFail _ _ _) h
  intro getxattrIn' _
  apply sliceFrom_bind h
  apply ends_bind_of_lookup (exec_orFail _ _ _) h
  intro name _
  apply getPath_bind h
  intro p _ hsafe
  refine cPath_bind_keeps hsafe (cName_bind_keeps fun cname => ?_) fs h
  apply Keeps.ite
  · exact askReply_keeps host (by simpa [HostCall.paths] using hsafe.1)
  · exact askReply_keeps host (by simpa [HostCall.paths] using hsafe.1)

theorem handleSetxattr_ends (h : fs.Safe root) :
    (handleSetxattr host header body).Ends (Safe root) (fun _ => True) fs := by
  apply ends_bind_of_lookup (exec_orFail _ _ _) h
  intro setxattrIn' _
  apply sliceFrom_bind h
  apply ends_bind_of_lookup (exec_orFail _ _ _) h
  intro name _
  apply ends_bind_of_lookup (exec_orFail _ _ _) h
  intro _ _
  apply (slice_keeps _ _ _ fs h).bind
  intro value _ fs h
  apply getPath_bind h
  intro p _ hsafe
  refine cPath_bind_keeps hsafe (cName_bind_keeps fun cname => ?_) fs h
  exact askReply_keeps host (by simpa [HostCall.paths] using hsafe.1)

theorem handleListxattr_ends (h : fs.Safe root) :
    (handleListxattr host header body).Ends (Safe root) (fun _ => True) fs := by
  apply ends_bind_of_lookup (exec_orFail _ _ _) h
  intro getxattrIn' _
  apply getPath_bind h
  intro p _ hsafe
  refine cPath_bind_keeps hsafe ?_ fs h
  apply Keeps.ite
  · exact askReply_keeps host (by simpa [HostCall.paths] using hsafe.1)
  · exact askReply_keeps host (by simpa [HostCall.paths] using hsafe.1)

theorem handleRemovexattr_ends (h : fs.Safe root) :
    (handleRemovexattr host header body).Ends (Safe root) (fun _ => True) fs := by
  apply ends_bind_of_lookup (exec_orFail _ _ _) h
  intro name _
  apply getPath_bind h
  intro p _ hsafe
  refine cPath_bind_keeps hsafe (cName_bind_keeps fun cname => ?_) fs h
  exact askReply_keeps host (by simpa [HostCall.paths] using hsafe.1)

theorem handleAccess_ends (h : fs.Safe root) :
    (handleAccess host header body).Ends (Safe root) (fun _ => True) fs := by
  apply ends_bind_of_lookup (exec_orFail _ _ _) h
  intro accessIn' _
  apply getPath_bind h
  intro p _ hsafe
  refine cPath_bind_keeps hsafe ?_ fs h
  exact askReply_keeps host (by simpa [HostCall.paths] using hsafe.1)

theorem handleFallocate_ends (h : fs.Safe root) :
    (handleFallocate host header body).Ends (Safe root) (fun _ => True) fs := by
  apply ends_bind_of_lookup (exec_orFail _ _ _) h
  intro fallocIn _
  apply ends_bind_of_lookup (exec_getFile _ _) h
  intro file _
  exact askReply_keeps host (by simp [HostCall.paths]) fs h

theorem handleLseek_ends (h : fs.Safe root) :
    (handleLseek host header body).Ends (Safe root) (fun _ => True) fs := by
  apply ends_bind_of_lookup (exec_orFail _ _ _) h
  intro lseekIn' _
  apply ends_bind_of_lookup (exec_getFile _ _) h
  intro file _
  exact askReply_keeps host (by simp [HostCall.paths]) fs h

theorem readdirLoop_keeps (plus : Bool) (maxSize offset : Nat) {entries : List (String × PathBuf)}
    (hsafe : ∀ entry ∈ entries, SafePath root entry.2) (i : Nat) (buf : Bytes) :
    (readdirLoop host plus maxSize offset i entries buf).Keeps (Safe root) fun _ => True := by
  induction entries generalizing i buf with
  | nil => exact keeps_pure trivial
  | cons entry entries ih =>
    obtain ⟨name, path⟩ := entry
    have hpath := hsafe _ List.mem_cons_self
    have hrest := ih fun entry hentry => hsafe entry (List.mem_cons_of_mem _ hentry)
    unfold readdirLoop
    apply Keeps.ite
    · exact hrest (i + 1) buf
    · apply Keeps.ite
      · exact keeps_pure trivial
      · apply (call_keeps host (by simpa [HostCall.paths] using hpath.1)).bind
        rintro (errno | metadata) _
        · exact hrest (i + 1) buf
        · apply (lookupOrInsert_keeps hpath).bind
          intro ino _
          exact hrest (i + 1) _

theorem readdirLoop_root (plus : Bool) (maxSize offset : Nat) (p : PathBuf) {entries : List (String × PathBuf)}
    (h : fs.Safe root) (hsafe : ∀ entry ∈ entries, SafePath root entry.2)
    (hskip : 2 ≤ offset ∨ maxSize < recordSize plus ".." ∨
      (offset = 0 ∧ maxSize < recordSize plus "." + recordSize plus ".." ∧
        ∃ metadata : Metadata, host.answer fs.calls.length (.symlinkMetadata root) = .ok metadata)) :
    (readdirLoop host plus maxSize offset 0 ((".", root) :: ("..", p) :: entries) []).Ends (Safe root)
      (fun _ => True) fs := by
  have hdot : recordSize plus "." = recordSize plus ".." := by
    cases plus <;> decide
  have hroot : SafePath root root := ⟨PathBuf.Inside.refl root, h.rootClean⟩
  rw [readdirLoop]
  by_cases h1 : 0 + 1 ≤ offset
  · rw [if_pos h1, readdirLoop]
    by_cases h2 : 0 + 1 + 1 ≤ offset
    · rw [if_pos h2]
      exact readdirLoop_keeps plus maxSize offset hsafe _ _ fs h
    · have hfull : ([] : Bytes).length + recordSize plus ".." > maxSize := by
        rw [List.length_nil]
        omega
      rw [if_neg h2, if_pos hfull]
      exact ends_pure h trivial
  · rw [if_neg h1]
    by_cases hfull : ([] : Bytes).length + recordSize plus "." > maxSize
    · rw [if_pos hfull]
      exact ends_pure h trivial
    · rw [if_neg hfull]
      rw [List.length_nil] at hfull
      obtain hge | hlt | ⟨-, hroom, metadata, hanswer⟩ := hskip
      · omega
      · omega
      · have hcall := (call_keeps (c := .symlinkMetadata root) host (by simpa [HostCall.paths] using hroot.1) fs h).state
        refine ends_bind_of_exec (Prod.ext (congrArg Except.ok hanswer) rfl) ?_
        apply (lookupOrInsert_keeps hroot _ hcall).bind
        intro ino _
        -- the record of `.` has taken the room
        have htaken : ([] ++ record plus ino (0 + 1) "." metadata).length + recordSize plus ".." > maxSize := by
          rw [List.nil_append, record_length]
          omega
        rw [readdirLoop, if_neg (by omega), if_pos htaken]
        exact keeps_pure trivial

theorem parent_safe (hp : SafePath root p) (h : p ≠ root ∨ root.comps = []) :
    SafePath root (p.parent.getD p) := by
  cases hparent : p.parent with
  | none => exact hp
  | some q =>
    refine ⟨?_, hp.2.parent hparent⟩
    obtain hne | hnil := h
    · exact hp.1.parent hne hparent
    · by_cases heq : p = root
      · subst heq
        simp [PathBuf.parent, hnil] at hparent
      · exact hp.1.parent heq hparent

theorem entries_safe (hhost : host.PlainNames) (hp : SafePath root p) {n : Nat} {names : List String}
    (hnames : host.answer n (.readDir p) = .ok names) :
    ∀ entry ∈ names.map fun name => (name, p.join (.ofStr name)), SafePath root entry.2 := by
  intro entry hentry
  obtain ⟨name, hname, rfl⟩ := List.mem_map.mp hentry
  obtain ⟨hne, -, hdots, hsep, hnul⟩ := hhost n p names hnames name hname
  apply hp.join ?_ hnul
  unfold NameOk
  rw [PathBuf.ofStr_of_plain hsep hne]
  simpa [PathBuf.dotDot] using fun h => hdots h.symm

theorem handleReaddir_ends (hhost : host.PlainNames) (plus : Bool) (h : fs.Safe root)
    (hlisting : ListingOk host root fs body plus) :
    (handleReaddir host header body plus).Ends (Safe root) (fun _ => True) fs := by
  apply ends_bind_of_lookup (exec_orFail _ _ _) h
  intro readIn' hread
  apply ends_bind_of_lookup (exec_getDir _ _) h
  intro p hp
  have hsafe := h.inodeMap.dirs _ p hp
  by_cases hout : p = root ∧ root.comps ≠ []
  · obtain ⟨rfl, hcomps⟩ := hout
    have hask := ask_ends (c := .readDir p) host h (by simpa [HostCall.paths] using hsafe.1)
    have hskip := hlisting readIn' hread hp hcomps
    cases hanswer : host.answer fs.calls.length (.readDir p) with
    | error errno =>
      apply hask.bind
      intro names hnames
      rw [hanswer] at hnames
      cases hnames
    | ok names =>
      have hstate := exec_ask host (.readDir p) fs
      have hsafe' := hask.state
      rw [hstate] at hsafe'
      rw [hanswer] at hstate
      refine ends_bind_of_exec hstate ?_
      have hloop := readdirLoop_root plus readIn'.size readIn'.offset (p.parent.getD p) hsafe'
        (entries_safe hhost hsafe hanswer) (by simpa [hanswer] using hskip)
      apply hloop.bind
      intro buf _
      exact keeps_pure trivial
  · have hparent := parent_safe hsafe (by tauto)
    apply (ask_keeps host (by simpa [HostCall.paths] using hsafe.1) fs h).bind
    rintro names ⟨n, hnames⟩
    have hentries : ∀ entry ∈ direntries p names, SafePath root entry.2 := by
      simpa [direntries] using ⟨hsafe, hparent, by simpa using entries_safe hhost hsafe hnames⟩
    apply (readdirLoop_keeps plus readIn'.size readIn'.offset hentries 0 []).bind
    intro buf _
    exact keeps_pure trivial

theorem handleOpcode_ends (hhost : host.PlainNames) (h : fs.Safe root) (opcode : Opcode)
    (hnames : NamesOk root fs header body opcode)
    (hlist : opcode = .readdir → ListingOk host root fs body false)
    (hlistplus : opcode = .readdirplus → ListingOk host root fs body true) :
    (handleOpcode host header body opcode).Ends (Safe root) (fun _ => True) fs := by
  cases opcode with
  | init => exact handleInit_ends h
  | lookup => exact handleLookup_ends h hnames
  | getattr => exact handleGetattr_keeps fs h
  | setattr => exact handleSetattr_ends h
  | «open» => exact handleOpen_ends h
  | read => exact handleRead_ends h
  | write => exact handleWrite_ends h
  | release | releasedir => exact handleRelease_keeps fs h
  | opendir => exact handleOpendir_ends h
  | readdir => exact handleReaddir_ends hhost false h (hlist rfl)
  | readdirplus => exact handleReaddir_ends hhost true h (hlistplus rfl)
  | create => exact handleCreate_ends h hnames
  | mkdir => exact handleMkdir_ends h hnames
  | unlink | rmdir =>
    exact removeEntry_ends h hnames (fun _ => rfl) fun name hname => by simp [joinedNames, hname]
  | rename => exact handleRename_ends h hnames
  | rename2 => exact handleRename2_ends h hnames
  | statfs => exact handleStatfs_ends h
  | flush | fsync | fsyncdir | syncfs | forget | batchForget => exact ends_pure h trivial
  | readlink => exact handleReadlink_ends h
  | symlink => exact handleSymlink_ends h hnames
  | mknod => exact handleMknod_ends h hnames
  | link => exact handleLink_ends h hnames
  | getxattr => exact handleGetxattr_ends h
  | setxattr => exact handleSetxattr_ends h
  | listxattr => exact handleListxattr_ends h
  | removexattr => exact handleRemovexattr_ends h
  | access => exact handleAccess_ends h
  | fallocate => exact handleFallocate_ends h
  | lseek => exact handleLseek_ends h

theorem handleFuseRequest_safe (hhost : host.PlainNames) (h : fs.Safe root) {request : Bytes}
    (hrequest : RequestOk host root fs request) : (handleFuseRequest host request fs).2.Safe root := by
  unfold handleFuseRequest
  by_cases hlen : request.length < InHeader.size
  · rw [if_pos hlen]
    exact h
  · rw [if_neg hlen]
    have hends : (dispatch host request).Ends (Safe root) (fun _ => True) fs := by
      apply sliceFrom_bind h
      cases hopcode : Opcode.ofNat? (InHeader.parse request).opcode with
      | none => exact ends_throw h
      | some opcode =>
        obtain ⟨hnames, hlist, hlistplus⟩ := hrequest (by omega) opcode hopcode
        exact handleOpcode_ends hhost h opcode hnames hlist hlistplus
    exact hends.state

end Handlers

theorem new_safe (hroot : root.Clean) : (VirtioFs.new root).Safe root := by
  have hempty : InodeMap.Safe root ⟨2, 1, ∅, ∅⟩ := ⟨nofun, nofun⟩
  have hmap := hempty.insert ⟨PathBuf.Inside.refl root, hroot⟩ rootId 2
  exact ⟨rfl, hroot, hmap, nofun⟩

def Step (host : Host) (fs : VirtioFs) (request : Bytes) (fs' : VirtioFs) : Prop :=
  fs' = (handleFuseRequest host request fs).2

/-- In every run whose requests join no name that leads out of the shared directory and do not list
its `..`, every path that the device remembers or hands to the host stays inside. -/
theorem confined_of_requestsOk (host : Host) (hhost : host.PlainNames) (root : PathBuf) (hroot : root.Clean)
    (requests : List Bytes) (fs : VirtioFs)
    (h : Steps (fun fs request fs' => Step host fs request fs' ∧ RequestOk host root fs request)
      (VirtioFs.new root) requests fs) : Confined root fs := by
  have hsafe : fs.Safe root := by
    apply h.invariant ?_ (new_safe hroot)
    rintro s request t ⟨rfl, hok⟩ hs
    exact handleFuseRequest_safe hhost hs hok
  exact hsafe.confined

def dirMetadata : Metadata := ⟨4096, 8, 0, 0, 0, 0, 0, 0, sIfdir ||| 0o755, 2, 0, 0, 0, 4096⟩

def dirHost : Host where
  answer _ c := match c with
    | .symlinkMetadata _ | .metadata _ => .ok dirMetadata
    | .readDir _ => .ok []
    | _ => .error enosys
  order table := table.entries
  order_perm table := List.Perm.refl table.entries

theorem dirHost_plainNames : dirHost.PlainNames := by
  intro n path names hnames name hname
  cases hnames
  cases hname

def share : PathBuf := ⟨true, [.text "srv", .text "share"]⟩

def lookupRequest (name : String) : Bytes :=
  u32 (InHeader.size + name.utf8ByteSize + 1) ++ u32 1 ++ u64 1 ++ u64 rootId ++ List.replicate 16 0
    ++ name.toUTF8.data.toList ++ [0]

theorem lookup_confined :
    Confined share (handleFuseRequest dirHost (lookupRequest "a") (VirtioFs.new share)).2 := by
  have hopcode : Opcode.ofNat? (InHeader.parse (lookupRequest "a")).opcode = some .lookup := by decide +kernel
  have hjoined : joinedNames (InHeader.parse (lookupRequest "a")) ((lookupRequest "a").drop InHeader.size)
      .lookup = some [(1, some "a")] := by
    decide +kernel
  have hname : PathBuf.ofStr "a" = ⟨false, [.text "a"]⟩ := by decide +kernel
  apply confined_of_requestsOk dirHost dirHost_plainNames share ⟨rfl, by decide⟩ [lookupRequest "a"]
  refine .cons ⟨rfl, ?_⟩ (.nil _)
  intro _ opcode hopcode'
  obtain rfl : Opcode.lookup = opcode := Option.some.inj (hopcode.symm.trans hopcode')
  refine ⟨?_, nofun, nofun⟩
  intro joined hjoined' _ entry hentry name hmem
  obtain rfl := Option.some.inj (hjoined.symm.trans hjoined')
  obtain rfl := List.mem_singleton.mp hentry
  obtain rfl := Option.some.inj hmem
  simp [NameOk, hname, PathBuf.dotDot]

theorem lookup_dotDot_escapes : ¬ ∀ (host : Host) (root : PathBuf) (requests : List Bytes) (fs : VirtioFs),
    host.PlainNames → Steps (Step host) (VirtioFs.new root) requests fs → Confined root fs := by
  intro hall
  have hconfined := hall dirHost share [lookupRequest ".."] _ dirHost_plainNames (.cons rfl (.nil _))
  have hcalls : (handleFuseRequest dirHost (lookupRequest "..") (VirtioFs.new share)).2.calls.map HostCall.paths =
      [[⟨true, [.text "srv", .text "share", .text ".."]⟩]] := by
    decide
  obtain ⟨c, hc, hpaths⟩ := List.mem_map.mp (hcalls ▸ List.mem_cons_self)
  obtain ⟨-, rest, hrest, hdots⟩ := hconfined.calls c hc ⟨true, _⟩ (hpaths ▸ List.mem_cons_self)
  apply hdots
  have hcomps : [OsName.text ".."] = rest := by simpa [share] using hrest
  simp [← hcomps, PathBuf.dotDot]

end VirtioFs

end CloneVmm.Virtio
