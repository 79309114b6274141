import CloneVmm.Virtio.Fs

namespace CloneVmm.Virtio

open CloneVmm.Lib Fuse Prog

variable {host : Host} {fs : VirtioFs}

namespace Fuse

theorem Layout.size_le_of_read? {α : Type} {layout : Layout α} {body : Bytes} {a : α}
    (h : layout.read? body = some a) : layout.size ≤ body.length := by
  unfold Layout.read? at h
  split at h
  · cases h
  · omega

theorem u32At_lt (bytes : Bytes) (off : Nat) : u32At bytes off < 2 ^ 32 := by
  have hlen : ((bytes.drop off).take 4).length ≤ 4 := List.length_take_le 4 _
  calc u32At bytes off < 256 ^ ((bytes.drop off).take 4).length := leNat_lt _
    _ ≤ 256 ^ 4 := Nat.pow_le_pow_right (by decide) hlen
    _ = 2 ^ 32 := by norm_num

theorem u64At_lt (bytes : Bytes) (off : Nat) : u64At bytes off < 2 ^ 64 := by
  have hlen : ((bytes.drop off).take 8).length ≤ 8 := List.length_take_le 8 _
  calc u64At bytes off < 256 ^ ((bytes.drop off).take 8).length := leNat_lt _
    _ ≤ 256 ^ 8 := Nat.pow_le_pow_right (by decide) hlen
    _ = 2 ^ 64 := by norm_num

def Framed (unique : Nat) (reply : Bytes) : Prop :=
  (∃ error, reply = makeErrorResponse unique error) ∨ ∃ payload, reply = makeResponse unique payload

theorem makeErrorResponse_framed (unique : Nat) (error : Int) : Framed unique (makeErrorResponse unique error) :=
  .inl ⟨error, rfl⟩

theorem makeResponse_framed (unique : Nat) (payload : Bytes) : Framed unique (makeResponse unique payload) :=
  .inr ⟨payload, rfl⟩

/-- The header in front of a reply: its `len`, its `unique` and its `error`. -/
structure WellFramed (unique : Nat) (reply : Bytes) : Prop where
  size : OutHeader.size ≤ reply.length
  len_mod : u32At reply 0 = reply.length % 2 ^ 32
  len : reply.length < 2 ^ 32 → u32At reply 0 = reply.length
  unique : u64At reply 8 = unique
  error : u32At reply 4 ≠ 0 → reply.length = OutHeader.size

section Header

variable (len : Nat) (error : Int) (unique : Nat) (payload : Bytes)

theorem outHeader_length : (outHeader len error unique).length = OutHeader.size := by
  simp [outHeader, u32, i32, u64, OutHeader.size]

theorem u32At_outHeader_len : u32At (outHeader len error unique ++ payload) 0 = len % 2 ^ 32 := by
  have hfield : ((outHeader len error unique ++ payload).drop 0).take 4 = u32 len := by
    simp [outHeader, u32]
  rw [u32At, hfield, u32, leNat_leBytes]
  norm_num

theorem u32At_outHeader_error : u32At (outHeader len error unique ++ payload) 4 = (error % 2 ^ 32).toNat := by
  have hfield : ((outHeader len error unique ++ payload).drop 4).take 4 = i32 error := by
    simp [outHeader, u32, i32]
  have hlt : (error % 2 ^ 32).toNat < 256 ^ 4 := by
    omega
  rw [u32At, hfield, i32, leNat_leBytes, Nat.mod_eq_of_lt hlt]

theorem u64At_outHeader_unique : u64At (outHeader len error unique ++ payload) 8 = unique % 2 ^ 64 := by
  have hfield : ((outHeader len error unique ++ payload).drop 8).take 8 = u64 unique := by
    have hskip : (u32 len ++ i32 error).length = 8 := by
      simp [u32, i32]
    rw [outHeader, List.append_assoc, List.drop_left' hskip]
    exact List.take_left' (leBytes_length 8 unique)
  rw [u64At, hfield, u64, leNat_leBytes]
  norm_num

end Header

theorem wellFramed_outHeader (error : Int) {unique : Nat} (payload : Bytes) (hunique : unique < 2 ^ 64)
    (herror : (error % 2 ^ 32).toNat ≠ 0 → payload = []) :
    WellFramed unique (outHeader (OutHeader.size + payload.length) error unique ++ payload) := by
  have hlength : (outHeader (OutHeader.size + payload.length) error unique ++ payload).length =
      OutHeader.size + payload.length := by
    rw [List.length_append, outHeader_length]
  refine ⟨?_, ?_, ?_, ?_, ?_⟩
  · rw [hlength]
    exact Nat.le_add_right _ _
  · rw [u32At_outHeader_len, hlength]
  · rw [u32At_outHeader_len, hlength]
    exact Nat.mod_eq_of_lt
  · rw [u64At_outHeader_unique, Nat.mod_eq_of_lt hunique]
  · rw [u32At_outHeader_error, hlength]
    intro hne
    rw [herror hne, List.length_nil, Nat.add_zero]

theorem Framed.ne_nil {unique : Nat} {reply : Bytes} (h : Framed unique reply) : reply ≠ [] := by
  obtain ⟨error, rfl⟩ | ⟨payload, rfl⟩ := h <;> simp [makeErrorResponse, makeResponse, outHeader, u32, leBytes]

theorem Framed.wellFramed {unique : Nat} {reply : Bytes} (h : Framed unique reply) (hunique : unique < 2 ^ 64) :
    WellFramed unique reply := by
  obtain ⟨error, rfl⟩ | ⟨payload, rfl⟩ := h
  · have halone := wellFramed_outHeader error [] hunique fun _ => rfl
    rwa [List.append_nil] at halone
  · exact wellFramed_outHeader 0 payload hunique fun hne => absurd rfl hne

end Fuse

namespace VirtioFs

variable {I : VirtioFs → Prop} {α β : Type} {R S : α → Prop} {T : β → Prop}

structure Kept (host : Host) (I : VirtioFs → Prop) : Prop where
  call : ∀ fs c, I fs → I { fs with calls := fs.calls ++ [c] }
  lookupOrInsert : ∀ fs path, I fs → I { fs with inodeMap := (fs.inodeMap.lookupOrInsert host path).2 }
  openHandle : ∀ fs handle, I fs → I { fs with inodeMap := (fs.inodeMap.openHandle handle).2 }
  release : ∀ fs fh, I fs → I { fs with inodeMap := fs.inodeMap.release fh }

/-- A handler that keeps `I` and does not panic. -/
def Serves (I : VirtioFs → Prop) (R : α → Prop) (m : Handler α) : Prop :=
  ∀ fs, I fs → m.Wp (fun a t => I t ∧ R a) (fun fault t => I t ∧ fault ≠ .panicked) fs

theorem serves_pure {a : α} (h : R a) : Serves I R (pure a) := fun _ hfs => wp_pure ⟨hfs, h⟩

theorem serves_throw (errno : Nat) : Serves I R (throw (.errno errno)) := fun _ hfs => wp_throw ⟨hfs, nofun⟩

theorem Serves.bind {m : Handler α} {f : α → Handler β} (hm : Serves I R m) (hf : ∀ a, R a → Serves I T (f a)) :
    Serves I T (m >>= f) :=
  fun fs hfs => (hm fs hfs).seq fun a t ha => hf a ha.2 t ha.1

theorem Serves.mono {m : Handler α} (hm : Serves I R m) (h : ∀ a, R a → S a) : Serves I S m :=
  fun fs hfs => (hm fs hfs).mono (fun a _ ha => ⟨ha.1, h a ha.2⟩) fun _ _ he => he

theorem Serves.ite {c : Prop} [Decidable c] {m m' : Handler α} (h : c → Serves I R m) (h' : Serves I R m') :
    Serves I R (if c then m else m') := by
  split
  · exact h ‹_›
  · exact h'

theorem serves_get : Serves I (fun _ => True) (get : Handler VirtioFs) := fun _ hfs => wp_get ⟨hfs, trivial⟩

theorem serves_discard {m : Handler α} (hm : Serves I R m) : Serves I (fun _ => True) (discard m) :=
  hm.bind fun _ _ => serves_pure trivial

theorem orFail_serves (errno : Nat) (o : Option α) : Serves I (fun a => o = some a) (orFail errno o) := by
  cases o with
  | none => exact serves_throw errno
  | some a => exact serves_pure rfl

theorem readStruct_serves (layout : Layout α) (body : Bytes) :
    Serves I (fun _ => layout.size ≤ body.length) (readStruct layout body) :=
  (orFail_serves einval (layout.read? body)).mono fun _ h => Layout.size_le_of_read? h

theorem readName_serves (data : Bytes) :
    Serves I (fun name => name.utf8ByteSize + 1 ≤ data.length) (readName data) :=
  (orFail_serves einval (cstrFromBytes data)).mono fun _ h => size_lt_of_cstrFromBytes h

theorem sliceFrom_serves {data : Bytes} {start : Nat} (h : start ≤ data.length) :
    Serves I (fun rest => rest = data.drop start) (sliceFrom data start) := by
  unfold sliceFrom
  rw [if_pos h]
  exact serves_pure rfl

theorem slice_serves {data : Bytes} {start stop : Nat} (h : start ≤ stop) (h' : stop ≤ data.length) :
    Serves I (fun _ => True) (slice data start stop) := by
  unfold slice
  rw [if_pos ⟨h, h'⟩]
  exact serves_pure trivial

theorem nameFrom_serves {data : Bytes} {start : Nat} {f : String → Handler β} (h : start ≤ data.length)
    (hf : ∀ name, Serves I T (f name)) :
    Serves I T (sliceFrom data start >>= fun rest => readName rest >>= f) := by
  apply (sliceFrom_serves h).bind
  intro rest _
  apply (readName_serves rest).bind
  intro name _
  exact hf name

theorem namesFrom_serves {data : Bytes} {start : Nat} {f : String → String → Handler β} (h : start ≤ data.length)
    (hf : ∀ oldName newName, Serves I T (f oldName newName)) :
    Serves I T (sliceFrom data start >>= fun namesBody => readName namesBody >>= fun oldName =>
      sliceFrom namesBody (oldName.utf8ByteSize + 1) >>= fun rest => readName rest >>= f oldName) := by
  apply (sliceFrom_serves h).bind
  intro namesBody _
  apply (readName_serves namesBody).bind
  intro oldName hsize
  exact nameFrom_serves hsize fun newName => hf oldName newName

theorem getPath_serves (ino : Nat) : Serves I (fun _ => True) (getPath ino) :=
  serves_get.bind fun _ _ => (orFail_serves enoent _).mono fun _ _ => trivial

theorem getFile_serves (fh : Nat) : Serves I (fun _ => True) (getFile fh) :=
  serves_get.bind fun _ _ => (orFail_serves ebadf _).mono fun _ _ => trivial

theorem getDir_serves (fh : Nat) : Serves I (fun _ => True) (getDir fh) :=
  serves_get.bind fun _ _ => (orFail_serves ebadf _).mono fun _ _ => trivial

theorem cPath_bind_serves {f : PathBuf → Handler β} (ino : Nat) (hf : ∀ path, Serves I T (f path)) :
    Serves I T (getPath ino >>= fun path => cPath path >>= f) := by
  apply (getPath_serves ino).bind
  intro path _
  apply (orFail_serves _ _).bind
  intro path' _
  exact hf path'

theorem renamePath_serves (hrename : ∀ fs p q, I fs → I { fs with inodeMap := fs.inodeMap.renamePath host p q })
    (header : InHeader) (oldPath newPath : PathBuf) :
    Serves I (Framed header.unique) (renamePath host oldPath newPath >>= fun _ => pure (ok header)) :=
  fun fs hfs => Wp.bind ⟨hrename fs oldPath newPath hfs, makeErrorResponse_framed _ _⟩

section Handlers

variable {header : InHeader} {body : Bytes} (hI : Kept host I)

include hI

theorem call_serves (c : HostCall) : Serves I (fun _ => True) (call host c) :=
  fun fs hfs => wp_modifyGet ⟨hI.call fs c hfs, trivial⟩

theorem ask_serves (c : HostCall) : Serves I (fun _ => True) (ask host c) := by
  apply (call_serves hI c).bind
  rintro (errno | result) _
  · exact serves_throw errno
  · exact serves_pure trivial

theorem askReply_serves (c : HostCall) (payload : c.Result → Bytes) (unique : Nat) :
    Serves I (Framed unique) (ask host c >>= fun result => pure (makeResponse unique (payload result))) :=
  (ask_serves hI c).bind fun result _ => serves_pure (makeResponse_framed unique (payload result))

theorem askDone_serves (c : HostCall) :
    Serves I (Framed header.unique) (ask host c >>= fun _ => pure (ok header)) :=
  (ask_serves hI c).bind fun _ _ => serves_pure (makeErrorResponse_framed header.unique 0)

theorem lookupOrInsert_serves (path : PathBuf) : Serves I (fun _ => True) (lookupOrInsert host path) :=
  fun fs hfs => wp_modifyGet ⟨hI.lookupOrInsert fs path hfs, trivial⟩

theorem openHandle_serves (handle : FuseFileHandle) :
    Serves I (fun _ => True) (updateMap fun m => m.openHandle handle) :=
  fun fs hfs => wp_modifyGet ⟨hI.openHandle fs handle hfs, trivial⟩

theorem chownToCaller_serves (path : PathBuf) (uid gid : Nat) :
    Serves I (fun _ => True) (chownToCaller host path uid gid) := by
  unfold chownToCaller
  split
  · exact serves_discard (call_serves hI _)
  · exact serves_pure trivial

theorem replyEntry_serves (unique : Nat) (path : PathBuf) :
    Serves I (Framed unique) (replyEntry host unique path) := by
  apply (ask_serves hI _).bind
  intro metadata _
  apply (lookupOrInsert_serves hI path).bind
  intro ino _
  exact serves_pure (makeResponse_framed _ _)

theorem handleLookup_serves : Serves I (Framed header.unique) (handleLookup host header body) := by
  apply (readName_serves body).bind
  intro name _
  apply (getPath_serves _).bind
  intro parentPath _
  exact replyEntry_serves hI _ _

theorem handleGetattr_serves : Serves I (Framed header.unique) (handleGetattr host header) := by
  apply (getPath_serves _).bind
  intro path _
  exact askReply_serves hI _ _ _

theorem setattrSize_serves (setattr : SetAttrIn) (path : PathBuf) :
    Serves I (fun _ => True) (setattrSize host setattr path) := by
  refine Serves.ite (fun _ => ?_) (serves_pure trivial)
  apply (call_serves hI _).bind
  rintro (errno | file) _
  · exact serves_pure trivial
  · exact serves_discard (call_serves hI _)

theorem setattrMode_serves (setattr : SetAttrIn) (path : PathBuf) :
    Serves I (fun _ => True) (setattrMode host setattr path) :=
  Serves.ite (fun _ => serves_discard (call_serves hI _)) (serves_pure trivial)

theorem setattrOwner_serves (setattr : SetAttrIn) (path : PathBuf) :
    Serves I (fun _ => True) (setattrOwner host setattr path) :=
  Serves.ite (fun _ => serves_discard (call_serves hI _)) (serves_pure trivial)

theorem handleSetattr_serves : Serves I (Framed header.unique) (handleSetattr host header body) := by
  apply (readStruct_serves _ body).bind
  intro setattr _
  apply (getPath_serves _).bind
  intro path _
  apply (setattrSize_serves hI setattr path).bind
  intro _ _
  apply (setattrMode_serves hI setattr path).bind
  intro _ _
  apply (setattrOwner_serves hI setattr path).bind
  intro _ _
  exact handleGetattr_serves hI

theorem handleOpen_serves : Serves I (Framed header.unique) (handleOpen host header body) := by
  apply (readStruct_serves _ body).bind
  intro openIn' _
  apply (getPath_serves _).bind
  intro path _
  apply (ask_serves hI _).bind
  intro file _
  apply (openHandle_serves hI _).bind
  intro fh _
  exact serves_pure (makeResponse_framed _ _)

theorem handleRead_serves : Serves I (Framed header.unique) (handleRead host header body) := by
  apply (readStruct_serves _ body).bind
  intro readIn' _
  apply (getFile_serves _).bind
  intro file _
  apply (ask_serves hI _).bind
  intro _ _
  exact askReply_serves hI _ _ _

theorem handleWrite_serves : Serves I (Framed header.unique) (handleWrite host header body) := by
  apply (readStruct_serves _ body).bind
  intro writeIn' hsize
  apply (sliceFrom_serves hsize).bind
  intro writeData _
  apply (getFile_serves _).bind
  intro file _
  apply (ask_serves hI _).bind
  intro _ _
  apply (slice_serves (Nat.zero_le _) (Nat.min_le_left _ _)).bind
  intro data _
  exact askReply_serves hI _ _ _

theorem handleRelease_serves : Serves I (Framed header.unique) (handleRelease header body) := by
  refine Serves.ite (fun hlen => ?_) (serves_pure (makeErrorResponse_framed _ _))
  apply (slice_serves (Nat.zero_le _) hlen).bind
  intro fh _ fs hfs
  exact Wp.bind ⟨hI.release fs (leNat fh) hfs, makeErrorResponse_framed _ _⟩

theorem handleOpendir_serves : Serves I (Framed header.unique) (handleOpendir host header) := by
  apply (getPath_serves _).bind
  intro path _
  apply (ask_serves hI _).bind
  intro metadata _
  refine Serves.ite (fun _ => ?_) (serves_throw enotdir)
  apply (openHandle_serves hI _).bind
  intro fh _
  exact serves_pure (makeResponse_framed _ _)

theorem readdirLoop_serves (plus : Bool) (maxSize offset : Nat) (entries : List (String × PathBuf)) (i : Nat)
    (buf : Bytes) : Serves I (fun _ => True) (readdirLoop host plus maxSize offset i entries buf) := by
  induction entries generalizing i buf with
  | nil => exact serves_pure trivial
  | cons entry entries ih =>
    obtain ⟨name, path⟩ := entry
    unfold readdirLoop
    refine Serves.ite (fun _ => ih _ _) ?_
    refine Serves.ite (fun _ => serves_pure trivial) ?_
    apply (call_serves hI _).bind
    rintro (errno | metadata) _
    · exact ih _ _
    · apply (lookupOrInsert_serves hI path).bind
      intro ino _
      exact ih _ _

theorem handleReaddir_serves (plus : Bool) :
    Serves I (Framed header.unique) (handleReaddir host header body plus) := by
  apply (readStruct_serves _ body).bind
  intro readIn' _
  apply (getDir_serves _).bind
  intro dirPath _
  apply (ask_serves hI _).bind
  intro names _
  apply (readdirLoop_serves hI plus _ _ _ _ _).bind
  intro buf _
  exact serves_pure (makeResponse_framed _ _)

theorem handleCreate_serves : Serves I (Framed header.unique) (handleCreate host header body) := by
  apply (readStruct_serves _ body).bind
  intro createIn' hsize
  apply nameFrom_serves hsize
  intro name
  apply (getPath_serves _).bind
  intro parentPath _
  apply (ask_serves hI _).bind
  intro file _
  apply (ask_serves hI _).bind
  intro metadata _
  apply (chownToCaller_serves hI _ _ _).bind
  intro _ _
  apply (lookupOrInsert_serves hI _).bind
  intro ino _
  apply (openHandle_serves hI _).bind
  intro fh _
  exact serves_pure (makeResponse_framed _ _)

theorem handleMkdir_serves : Serves I (Framed header.unique) (handleMkdir host header body) := by
  apply (readStruct_serves _ body).bind
  intro mkdirIn' hsize
  apply nameFrom_serves hsize
  intro name
  apply (getPath_serves _).bind
  intro parentPath _
  apply (ask_serves hI _).bind
  intro _ _
  apply (chownToCaller_serves hI _ _ _).bind
  intro _ _
  exact replyEntry_serves hI _ _

theorem removeEntry_serves (remove : PathBuf → HostCall) :
    Serves I (Framed header.unique) (removeEntry host header body remove) := by
  apply (readName_serves body).bind
  intro name _
  apply (getPath_serves _).bind
  intro parentPath _
  apply (serves_discard (ask_serves hI _)).bind
  intro _ _
  exact serves_pure (makeErrorResponse_framed _ _)

theorem handleStatfs_serves : Serves I (Framed header.unique) (handleStatfs host header) := by
  apply serves_get.bind
  intro fs _
  apply (orFail_serves _ _).bind
  intro root _
  exact askReply_serves hI _ _ _

theorem handleReadlink_serves : Serves I (Framed header.unique) (handleReadlink host header) := by
  apply (getPath_serves _).bind
  intro path _
  exact askReply_serves hI (.readLink path) (fun target : String => target.toUTF8.data.toList) _

theorem handleSymlink_serves : Serves I (Framed header.unique) (handleSymlink host header body) := by
  apply (readName_serves body).bind
  intro name hsize
  apply nameFrom_serves hsize
  intro target
  apply (getPath_serves _).bind
  intro parentPath _
  apply (ask_serves hI _).bind
  intro _ _
  apply (chownToCaller_serves hI _ _ _).bind
  intro _ _
  exact replyEntry_serves hI _ _

theorem makeNode_serves (path : PathBuf) (mode rdev : Nat) :
    Serves I (fun _ => True) (makeNode host path mode rdev) := by
  refine Serves.ite (fun _ => serves_discard (ask_serves hI _)) ?_
  apply (orFail_serves _ _).bind
  intro cPath _
  exact ask_serves hI _

theorem handleMknod_serves : Serves I (Framed header.unique) (handleMknod host header body) := by
  apply (readStruct_serves _ body).bind
  intro mknodIn' hsize
  apply nameFrom_serves hsize
  intro name
  apply (getPath_serves _).bind
  intro parentPath _
  apply (makeNode_serves hI _ _ _).bind
  intro _ _
  apply (chownToCaller_serves hI _ _ _).bind
  intro _ _
  exact replyEntry_serves hI _ _

theorem handleLink_serves : Serves I (Framed header.unique) (handleLink host header body) := by
  apply (readStruct_serves _ body).bind
  intro linkIn' hsize
  apply nameFrom_serves hsize
  intro name
  apply (getPath_serves _).bind
  intro oldPath _
  apply (getPath_serves _).bind
  intro newParent _
  apply (ask_serves hI _).bind
  intro _ _
  exact replyEntry_serves hI _ _

theorem handleGetxattr_serves : Serves I (Framed header.unique) (handleGetxattr host header body) := by
  apply (readStruct_serves _ body).bind
  intro getxattrIn' hsize
  apply nameFrom_serves hsize
  intro name
  apply cPath_bind_serves _
  intro path
  apply (orFail_serves _ _).bind
  intro name' _
  refine Serves.ite (fun _ => ?_) ?_
  · exact askReply_serves hI (.lgetxattrSize path name') getxattrOut _
  · exact askReply_serves hI (.lgetxattr path name' _) (fun buf : Bytes => buf) _

theorem handleSetxattr_serves : Serves I (Framed header.unique) (handleSetxattr host header body) := by
  apply (readStruct_serves _ body).bind
  intro setxattrIn' hsize
  apply (sliceFrom_serves hsize).bind
  intro rest _
  apply (readName_serves rest).bind
  intro name _
  apply (orFail_serves _ _).bind
  intro _ hvalue
  have hend : name.utf8ByteSize + 1 + setxattrIn'.size ≤ rest.length := by
    split at hvalue
    · cases hvalue
    · omega
  apply (slice_serves (Nat.le_add_right _ _) hend).bind
  intro value _
  apply cPath_bind_serves _
  intro path
  apply (orFail_serves _ _).bind
  intro name' _
  exact askDone_serves hI _

theorem handleListxattr_serves : Serves I (Framed header.unique) (handleListxattr host header body) := by
  apply (readStruct_serves _ body).bind
  intro getxattrIn' _
  apply cPath_bind_serves _
  intro path
  refine Serves.ite (fun _ => ?_) ?_
  · exact askReply_serves hI (.llistxattrSize path) getxattrOut _
  · exact askReply_serves hI (.llistxattr path _) (fun buf : Bytes => buf) _

theorem handleRemovexattr_serves : Serves I (Framed header.unique) (handleRemovexattr host header body) := by
  apply (readName_serves body).bind
  intro name _
  apply cPath_bind_serves _
  intro path
  apply (orFail_serves _ _).bind
  intro name' _
  exact askDone_serves hI _

theorem handleAccess_serves : Serves I (Framed header.unique) (handleAccess host header body) := by
  apply (readStruct_serves _ body).bind
  intro accessIn' _
  apply cPath_bind_serves _
  intro path
  exact askDone_serves hI _

theorem handleFallocate_serves : Serves I (Framed header.unique) (handleFallocate host header body) := by
  apply (readStruct_serves _ body).bind
  intro fallocIn _
  apply (getFile_serves _).bind
  intro file _
  exact askDone_serves hI _

theorem handleLseek_serves : Serves I (Framed header.unique) (handleLseek host header body) := by
  apply (readStruct_serves _ body).bind
  intro lseekIn' _
  apply (getFile_serves _).bind
  intro file _
  exact askReply_serves hI (.lseek file _ _) lseekOut _

theorem renameWithFlags_serves (oldPath newPath : PathBuf) (flags : Nat) :
    Serves I (fun _ => True) (renameWithFlags host oldPath newPath flags) := by
  refine Serves.ite (fun _ => ?_) (ask_serves hI _)
  apply (orFail_serves _ _).bind
  intro cOld _
  apply (orFail_serves _ _).bind
  intro cNew _
  exact ask_serves hI _

section Rename

variable (hrename : ∀ fs p q, I fs → I { fs with inodeMap := fs.inodeMap.renamePath host p q })

include hrename

theorem handleRename_serves : Serves I (Framed header.unique) (handleRename host header body) := by
  apply (readStruct_serves _ body).bind
  intro renameIn' hsize
  apply namesFrom_serves hsize
  intro oldName newName
  apply (getPath_serves _).bind
  intro oldParent _
  apply (getPath_serves _).bind
  intro newParent _
  apply (ask_serves hI _).bind
  intro _ _
  exact renamePath_serves hrename header _ _

theorem handleRename2_serves : Serves I (Framed header.unique) (handleRename2 host header body) := by
  apply (readStruct_serves _ body).bind
  intro rename2In' hsize
  apply namesFrom_serves hsize
  intro oldName newName
  apply (getPath_serves _).bind
  intro oldParent _
  apply (getPath_serves _).bind
  intro newParent _
  apply (renameWithFlags_serves hI _ _ _).bind
  intro _ _
  exact renamePath_serves hrename header _ _

end Rename

def Answers (unique : Nat) (reply : Bytes) : Opcode → Prop
  | .forget | .batchForget => reply = []
  | _ => Framed unique reply

theorem handleOpcode_serves (opcode : Opcode)
    (hrename : opcode = .rename ∨ opcode = .rename2 →
      ∀ fs p q, I fs → I { fs with inodeMap := fs.inodeMap.renamePath host p q }) :
    Serves I (Answers header.unique · opcode) (handleOpcode host header body opcode) := by
  cases opcode with
  | init =>
    apply (readStruct_serves _ body).bind
    intro _ _
    exact serves_pure (makeResponse_framed _ _)
  | lookup => exact handleLookup_serves hI
  | getattr => exact handleGetattr_serves hI
  | setattr => exact handleSetattr_serves hI
  | «open» => exact handleOpen_serves hI
  | read => exact handleRead_serves hI
  | write => exact handleWrite_serves hI
  | release | releasedir => exact handleRelease_serves hI
  | opendir => exact handleOpendir_serves hI
  | readdir => exact handleReaddir_serves hI false
  | readdirplus => exact handleReaddir_serves hI true
  | create => exact handleCreate_serves hI
  | mkdir => exact handleMkdir_serves hI
  | unlink => exact removeEntry_serves hI .removeFile
  | rmdir => exact removeEntry_serves hI .removeDir
  | rename => exact handleRename_serves hI (hrename (.inl rfl))
  | rename2 => exact handleRename2_serves hI (hrename (.inr rfl))
  | statfs => exact handleStatfs_serves hI
  | flush | fsync | fsyncdir | syncfs => exact serves_pure (makeErrorResponse_framed _ _)
  | forget | batchForget => exact serves_pure rfl
  | readlink => exact handleReadlink_serves hI
  | symlink => exact handleSymlink_serves hI
  | mknod => exact handleMknod_serves hI
  | link => exact handleLink_serves hI
  | getxattr => exact handleGetxattr_serves hI
  | setxattr => exact handleSetxattr_serves hI
  | listxattr => exact handleListxattr_serves hI
  | removexattr => exact handleRemovexattr_serves hI
  | access => exact handleAccess_serves hI
  | fallocate => exact handleFallocate_serves hI
  | lseek => exact handleLseek_serves hI

theorem dispatch_serves {request : Bytes} (hlen : InHeader.size ≤ request.length)
    (hrename : ∀ opcode, Opcode.ofNat? (InHeader.parse request).opcode = some opcode →
      opcode = .rename ∨ opcode = .rename2 →
      ∀ fs p q, I fs → I { fs with inodeMap := fs.inodeMap.renamePath host p q }) :
    Serves I (fun response => ∃ opcode, Opcode.ofNat? (InHeader.parse request).opcode = some opcode ∧
      Answers (InHeader.parse request).unique response opcode) (dispatch host request) := by
  apply (sliceFrom_serves hlen).bind
  intro body _
  cases hopcode : Opcode.ofNat? (InHeader.parse request).opcode with
  | none => exact serves_throw enosys
  | some opcode =>
    exact (handleOpcode_serves hI opcode (hrename opcode hopcode)).mono fun response h => ⟨opcode, rfl, h⟩

end Handlers

theorem Answers.nil_iff {unique : Nat} {reply : Bytes} {opcode : Opcode} (h : Answers unique reply opcode) :
    reply = [] ↔ opcode = .forget ∨ opcode = .batchForget := by
  cases opcode
  case forget | batchForget => simpa [Answers] using h
  all_goals simpa using Framed.ne_nil h

theorem Answers.framed {unique : Nat} {reply : Bytes} {opcode : Opcode} (h : Answers unique reply opcode)
    (hne : reply ≠ []) : Framed unique reply := by
  cases opcode
  case forget | batchForget => exact absurd h hne
  all_goals exact h

theorem kept_true (host : Host) : Kept host fun _ => True :=
  ⟨fun _ _ h => h, fun _ _ h => h, fun _ _ h => h, fun _ _ h => h⟩

theorem exec_dispatch_forget (host : Host) {request : Bytes} (fs : VirtioFs) (hlen : InHeader.size ≤ request.length)
    (hopcode : Opcode.ofNat? (InHeader.parse request).opcode ∈ [some .forget, some .batchForget]) :
    (dispatch host request).exec fs = (.ok [], fs) := by
  unfold dispatch sliceFrom
  rw [if_pos hlen, pure_bind]
  rcases List.mem_pair.mp hopcode with h | h
  · rw [h]
    rfl
  · rw [h]
    rfl

theorem reply_dispatch (host : Host) {request : Bytes} (fs : VirtioFs) (hlen : InHeader.size ≤ request.length) :
    ∃ response, reply (InHeader.parse request).unique ((dispatch host request).exec fs).1 = some response ∧
      (response = [] ↔ Opcode.ofNat? (InHeader.parse request).opcode ∈ [some .forget, some .batchForget]) ∧
      (response ≠ [] → Framed (InHeader.parse request).unique response) := by
  have hserves := dispatch_serves (kept_true host) hlen (fun _ _ _ _ _ _ h => h) fs trivial
  unfold Wp at hserves
  cases hrun : (dispatch host request).exec fs with
  | mk outcome t =>
    rw [hrun] at hserves
    cases outcome with
    | ok response =>
      obtain ⟨-, opcode, hopcode, hanswers⟩ := hserves
      refine ⟨response, rfl, ?_, hanswers.framed⟩
      rw [hanswers.nil_iff, hopcode]
      simp
    | error fault =>
      cases fault with
      | panicked => exact absurd rfl hserves.2
      | errno n =>
        have hframed := makeErrorResponse_framed (InHeader.parse request).unique (-n)
        refine ⟨_, rfl, ⟨fun hnil => absurd hnil hframed.ne_nil, fun hopcode => ?_⟩, fun _ => hframed⟩
        rw [exec_dispatch_forget host fs hlen hopcode] at hrun
        cases hrun

/-- `handle_fuse_request` replies to every request without a slice outside of it. Only `FORGET` and
`BATCH_FORGET` get no bytes, and the header of a reply tells its length, the request it belongs to and
whether bytes follow. -/
theorem handleFuseRequest_framed (host : Host) (request : Bytes) (fs : VirtioFs) :
    ∃ response, (handleFuseRequest host request fs).1 = some response ∧
      (response = [] ↔ InHeader.size ≤ request.length ∧
        Opcode.ofNat? (u32At request 4) ∈ [some .forget, some .batchForget]) ∧
      (response ≠ [] →
        WellFramed (if request.length < InHeader.size then 0 else u64At request 8) response) := by
  unfold handleFuseRequest
  by_cases hlen : request.length < InHeader.size
  · have hframed := makeErrorResponse_framed 0 (-einval)
    rw [if_pos hlen, if_pos hlen]
    refine ⟨_, rfl, ⟨fun hnil => absurd hnil hframed.ne_nil, fun hwhole => by omega⟩, fun _ => ?_⟩
    exact hframed.wellFramed (by decide)
  · rw [if_neg hlen, if_neg hlen]
    obtain ⟨response, hreply, hnil, hframed⟩ := reply_dispatch host fs (Nat.not_lt.mp hlen)
    refine ⟨response, hreply, ?_, fun hne => (hframed hne).wellFramed (u64At_lt request 8)⟩
    rw [hnil]
    exact (and_iff_right (Nat.not_lt.mp hlen)).symm

end VirtioFs

end CloneVmm.Virtio
