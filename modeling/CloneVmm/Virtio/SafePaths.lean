import CloneVmm.Virtio.Fs

namespace CloneVmm.Virtio

open CloneVmm.Lib Fuse Prog

variable {host : Host} {root : PathBuf} {fs : VirtioFs}

/-- The paths of the inode map, those of its directory handles and those handed to the host are lexically inside `root`. -/
structure Confined (root : PathBuf) (fs : VirtioFs) : Prop where
  inodes : ∀ ino p, fs.inodeMap.getPath ino = some p → root.Inside p
  dirs : ∀ fh p, fs.inodeMap.getDir fh = some p → root.Inside p
  calls : ∀ c ∈ fs.calls, ∀ p ∈ c.paths, root.Inside p

def NameOk (root : PathBuf) (name : String) : Prop :=
  if (PathBuf.ofStr name).absolute then root.Inside (.ofStr name)
  else PathBuf.dotDot ∉ (PathBuf.ofStr name).comps

def Host.PlainNames (host : Host) : Prop :=
  ∀ n path (names : List String), host.answer n (.readDir path) = .ok names →
    ∀ name ∈ names, name ≠ "" ∧ name ≠ "." ∧ name ≠ ".." ∧ '/' ∉ name.toList ∧ '\x00' ∉ name.toList

def SafePath (root p : PathBuf) : Prop := root.Inside p ∧ p.Clean

structure InodeMap.Safe (root : PathBuf) (m : InodeMap) : Prop where
  inodes : ∀ ino p, m.getPath ino = some p → SafePath root p
  dirs : ∀ fh p, m.getDir fh = some p → SafePath root p

structure VirtioFs.Safe (root : PathBuf) (fs : VirtioFs) : Prop where
  rootDir : fs.rootDir = root
  rootClean : root.Clean
  inodeMap : fs.inodeMap.Safe root
  calls : ∀ c ∈ fs.calls, ∀ p ∈ c.paths, root.Inside p

theorem VirtioFs.Safe.confined (h : fs.Safe root) : Confined root fs :=
  ⟨fun ino p hp => (h.inodeMap.inodes ino p hp).1, fun fh p hp => (h.inodeMap.dirs fh p hp).1, h.calls⟩

namespace SafePath

variable {p : PathBuf} {name : String}

theorem join (h : SafePath root p) (hname : NameOk root name) (hnul : '\x00' ∉ name.toList) :
    SafePath root (p.join (.ofStr name)) := by
  refine ⟨?_, h.2.join (PathBuf.clean_ofStr hnul)⟩
  unfold NameOk at hname
  split at hname
  · rw [PathBuf.join_of_absolute ‹_›]
    exact hname
  · exact h.1.join (Bool.eq_false_iff.mpr ‹_›) hname

theorem cString_eq (h : SafePath root p) (default : PathBuf) : cString p default = some p := by
  obtain ⟨htext, hnul⟩ := h.2
  simp [cString, htext, hnul]

end SafePath

namespace InodeMap.Safe

variable {m : InodeMap} {p q : PathBuf}

theorem insert (h : m.Safe root) (hp : SafePath root p) (ino : Nat) (next : Nat) :
    InodeMap.Safe root { m with nextInode := next, inodes := m.inodes.insert ino p } := by
  refine ⟨?_, h.dirs⟩
  intro ino' p' hp'
  unfold InodeMap.getPath at hp'
  by_cases heq : ino' = ino
  · subst heq
    rw [AList.lookup_insert] at hp'
    obtain rfl := Option.some.inj hp'
    exact hp
  · rw [AList.lookup_insert_ne heq] at hp'
    exact h.inodes ino' p' hp'

theorem lookupOrInsert (h : m.Safe root) (hp : SafePath root p) : (m.lookupOrInsert host p).2.Safe root := by
  unfold InodeMap.lookupOrInsert
  split
  · exact h
  · exact h.insert hp m.nextInode (m.nextInode + 1)

theorem renamePath (h : m.Safe root) (hq : SafePath root q) : (m.renamePath host p q).Safe root := by
  unfold InodeMap.renamePath
  split
  · exact h.insert hq _ m.nextInode
  · exact h

theorem openHandle {handle : FuseFileHandle} (h : m.Safe root) (hdir : ∀ p, handle = .dir p → SafePath root p) :
    (m.openHandle handle).2.Safe root := by
  refine ⟨h.inodes, ?_⟩
  intro fh p hp
  unfold InodeMap.getDir at hp
  by_cases heq : fh = m.nextFh
  · subst heq
    simp only [InodeMap.openHandle, AList.lookup_insert] at hp
    cases handle with
    | file file => cases hp
    | dir path =>
      obtain rfl := Option.some.inj hp
      exact hdir path rfl
  · simp only [InodeMap.openHandle, AList.lookup_insert_ne heq] at hp
    exact h.dirs fh p hp

theorem release (h : m.Safe root) (fh : Nat) : (m.release fh).Safe root := by
  refine ⟨h.inodes, ?_⟩
  intro fh' p hp
  unfold InodeMap.getDir InodeMap.release at hp
  by_cases heq : fh' = fh
  · subst heq
    rw [AList.lookup_erase] at hp
    cases hp
  · rw [AList.lookup_erase_ne heq] at hp
    exact h.dirs fh' p hp

end InodeMap.Safe

namespace VirtioFs

section Primitives

variable {α β : Type} {T : β → Prop} {I : VirtioFs → Prop}

theorem wp_lookup_bind {m : Handler α} {f : α → Handler β} {o : Option α} {fault : Fault} {Q : β → VirtioFs → Prop}
    {E : Fault → VirtioFs → Prop} (hm : m.exec fs = (o.elim (.error fault) .ok, fs)) (hnone : o = none → E fault fs)
    (hsome : ∀ a, o = some a → (f a).Wp Q E fs) : (m >>= f).Wp Q E fs := by
  apply Wp.bind
  unfold Wp
  rw [hm]
  cases o with
  | none => exact hnone rfl
  | some a => exact hsome a rfl

theorem wp_sliceFrom_bind {data : Bytes} {start : Nat} {f : Bytes → Handler β} {Q : β → VirtioFs → Prop}
    {E : Fault → VirtioFs → Prop} (h : start ≤ data.length) (hf : (f (data.drop start)).Wp Q E fs) :
    (sliceFrom data start >>= f).Wp Q E fs := by
  unfold sliceFrom
  rw [if_pos h]
  exact hf

theorem ends_bind_of_lookup {m : Handler α} {f : α → Handler β} {o : Option α} {fault : Fault}
    (hm : m.exec fs = (o.elim (.error fault) .ok, fs)) (hfs : I fs)
    (hf : ∀ a, o = some a → (f a).Ends I T fs) : (m >>= f).Ends I T fs :=
  wp_lookup_bind hm (fun _ => hfs) hf

theorem exec_orFail (errno : Nat) (o : Option α) (fs : VirtioFs) :
    (orFail errno o).exec fs = (o.elim (.error (.errno errno)) .ok, fs) := by
  cases o with
  | none => rfl
  | some a => rfl

theorem sliceFrom_bind {data : Bytes} {start : Nat} {f : Bytes → Handler β} (hfs : I fs)
    (hf : (f (data.drop start)).Ends I T fs) : (sliceFrom data start >>= f).Ends I T fs := by
  by_cases h : start ≤ data.length
  · exact wp_sliceFrom_bind h hf
  · unfold sliceFrom
    rw [if_neg h]
    exact Wp.bind hfs

theorem slice_keeps (data : Bytes) (start stop : Nat) : (slice data start stop).Keeps I fun _ => True := by
  apply Keeps.ite
  · exact keeps_pure trivial
  · exact keeps_throw

theorem exec_getPath (ino : Nat) (fs : VirtioFs) :
    (getPath ino).exec fs = ((fs.inodeMap.getPath ino).elim (.error (.errno enoent)) .ok, fs) :=
  exec_orFail enoent (fs.inodeMap.getPath ino) fs

theorem exec_getFile (fh : Nat) (fs : VirtioFs) :
    (getFile fh).exec fs = ((fs.inodeMap.getFile fh).elim (.error (.errno ebadf)) .ok, fs) :=
  exec_orFail ebadf (fs.inodeMap.getFile fh) fs

theorem exec_getDir (fh : Nat) (fs : VirtioFs) :
    (getDir fh).exec fs = ((fs.inodeMap.getDir fh).elim (.error (.errno ebadf)) .ok, fs) :=
  exec_orFail ebadf (fs.inodeMap.getDir fh) fs

theorem getPath_bind {ino : Nat} {f : PathBuf → Handler β} (h : fs.Safe root)
    (hf : ∀ p, fs.inodeMap.getPath ino = some p → SafePath root p → (f p).Ends (Safe root) T fs) :
    (getPath ino >>= f).Ends (Safe root) T fs := by
  apply ends_bind_of_lookup (exec_getPath ino fs) h
  intro p hp
  exact hf p hp (h.inodeMap.inodes ino p hp)

variable {c : HostCall} {p q : PathBuf}

theorem call_keeps (host : Host) (hc : ∀ p ∈ c.paths, root.Inside p) :
    (call host c).Keeps (Safe root) fun r => ∃ n, host.answer n c = r := by
  intro fs h
  constructor
  · refine ⟨h.rootDir, h.rootClean, h.inodeMap, ?_⟩
    intro c' hc'
    rcases List.mem_append.mp hc' with hmem | hmem
    · exact h.calls c' hmem
    · obtain rfl := List.mem_singleton.mp hmem
      exact hc
  · exact ⟨fs.calls.length, rfl⟩

theorem exec_ask (host : Host) (c : HostCall) (fs : VirtioFs) :
    (ask host c).exec fs =
      ((host.answer fs.calls.length c).mapError Fault.errno, { fs with calls := fs.calls ++ [c] }) := by
  have hcall : (call host c).exec fs =
      (.ok (host.answer fs.calls.length c), { fs with calls := fs.calls ++ [c] }) := rfl
  rw [ask, exec_bind, hcall]
  cases host.answer fs.calls.length c with
  | error errno => rfl
  | ok r => rfl

theorem ask_ends (host : Host) (h : fs.Safe root) (hc : ∀ p ∈ c.paths, root.Inside p) :
    (ask host c).Ends (Safe root) (fun r => host.answer fs.calls.length c = .ok r) fs := by
  have hcall := (call_keeps host hc fs h).state
  unfold Ends Wp
  rw [exec_ask]
  cases host.answer fs.calls.length c with
  | error errno => exact hcall
  | ok r => exact ⟨hcall, rfl⟩

theorem ask_keeps (host : Host) (hc : ∀ p ∈ c.paths, root.Inside p) :
    (ask host c).Keeps (Safe root) fun r => ∃ n, host.answer n c = .ok r :=
  fun _ h => (ask_ends host h hc).mono fun _ hr => ⟨_, hr⟩

theorem askReply_keeps (host : Host) (hc : ∀ p ∈ c.paths, root.Inside p) {g : c.Result → α} :
    (ask host c >>= fun r => pure (g r)).Keeps (Safe root) fun _ => True := by
  apply (ask_keeps host hc).bind
  intro r _
  exact keeps_pure trivial

theorem updateMap_keeps {f : InodeMap → α × InodeMap} (hf : ∀ m, m.Safe root → (f m).2.Safe root) :
    (updateMap f).Keeps (Safe root) fun _ => True :=
  fun fs h => ⟨⟨h.rootDir, h.rootClean, hf fs.inodeMap h.inodeMap, h.calls⟩, trivial⟩

theorem lookupOrInsert_keeps (hp : SafePath root p) :
    (lookupOrInsert host p).Keeps (Safe root) fun _ => True :=
  updateMap_keeps fun _ hm => hm.lookupOrInsert hp

theorem discard_keeps {m : Handler α} {R : α → Prop} (hm : m.Keeps I R) : (discard m).Keeps I fun _ => True :=
  hm.bind fun _ _ => keeps_pure trivial

theorem replyEntry_keeps (hp : SafePath root p) (unique : Nat) :
    (replyEntry host unique p).Keeps (Safe root) fun _ => True := by
  apply (ask_keeps host (by simpa [HostCall.paths] using hp.1)).bind
  intro metadata _
  apply (lookupOrInsert_keeps hp).bind
  intro ino _
  exact keeps_pure trivial

theorem chownToCaller_keeps (hp : SafePath root p) (uid gid : Nat) :
    (chownToCaller host p uid gid).Keeps (Safe root) fun _ => True := by
  unfold chownToCaller
  rw [hp.cString_eq]
  exact discard_keeps (call_keeps host (by simpa [HostCall.paths] using hp.1))

theorem renamePath_keeps (hq : SafePath root q) : (renamePath host p q).Keeps (Safe root) fun _ => True :=
  updateMap_keeps fun _ hm => hm.renamePath hq

theorem cPath_bind_keeps {f : PathBuf → Handler β} (hp : SafePath root p)
    (hf : (f p).Keeps (Safe root) T) : (cPath p >>= f).Keeps (Safe root) T := by
  intro fs h
  apply ends_bind_of_lookup (exec_orFail _ _ _) h
  intro q hq
  rw [hp.cString_eq] at hq
  obtain rfl := Option.some.inj hq
  exact hf fs h

theorem cName_bind_keeps {name : String} {f : String → Handler β}
    (hf : ∀ cname, (f cname).Keeps (Safe root) T) : (cName name >>= f).Keeps (Safe root) T := by
  intro fs h
  apply ends_bind_of_lookup (exec_orFail _ _ _) h
  intro cname _
  exact hf cname fs h

theorem Safe.join {ino : Nat} {name : String} {data : Bytes} (h : fs.Safe root)
    (hp : fs.inodeMap.getPath ino = some p) (hname : cstrFromBytes data = some name)
    (hok : NameOk root name) : SafePath root (p.join (.ofStr name)) :=
  (h.inodeMap.inodes ino p hp).join hok (nul_notMem_of_cstrFromBytes hname)

end Primitives

end VirtioFs

end CloneVmm.Virtio
