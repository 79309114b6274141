import CloneVmm.Virtio.Confinement
import CloneVmm.Virtio.Framing

namespace CloneVmm.Virtio

open CloneVmm.Lib Fuse Prog

variable {host : Host} {fs : VirtioFs} {old new p : PathBuf}

namespace InodeMap

variable {m : InodeMap} {ino : Nat}

theorem getPath_of_findInode (h : m.findInode host p = some ino) : m.getPath ino = some p := by
  unfold findInode at h
  obtain ⟨entry, hfind, rfl⟩ := Option.map_eq_some_iff.mp h
  have hmem : entry ∈ m.inodes.entries := (host.order_perm m.inodes).subset (List.mem_of_find?_eq_some hfind)
  have hpath : entry.2 = p := by simpa using List.find?_some hfind
  rw [← hpath]
  exact AList.mem_lookup_iff.mpr hmem

theorem getPath_ne_of_findInode (h : m.findInode host p = none) (ino : Nat) : m.getPath ino ≠ some p := by
  intro hpath
  have hmem : (⟨ino, p⟩ : (_ : Nat) × PathBuf) ∈ host.order m.inodes :=
    (host.order_perm m.inodes).symm.subset (AList.mem_lookup_iff.mp hpath)
  have hnone := List.find?_eq_none.mp (Option.map_eq_none_iff.mp h) _ hmem
  simp at hnone

theorem getPath_insert (m : InodeMap) (next i ino : Nat) (p : PathBuf) :
    getPath { m with nextInode := next, inodes := m.inodes.insert i p } ino =
      if ino = i then some p else m.getPath ino := by
  unfold getPath
  split
  · subst ino
    exact AList.lookup_insert _
  · exact AList.lookup_insert_ne ‹_›

theorem getPath_renamePath (h : m.findInode host old = some ino) (ino' : Nat) :
    (m.renamePath host old new).getPath ino' = if ino' = ino then some new else m.getPath ino' := by
  unfold renamePath
  rw [h]
  exact getPath_insert m m.nextInode ino ino' new

theorem renamePath_of_none (h : m.findInode host old = none) : m.renamePath host old new = m := by
  unfold renamePath
  rw [h]

theorem renamePath_nextInode : (m.renamePath host old new).nextInode = m.nextInode := by
  unfold renamePath
  split
  · rfl
  · rfl

end InodeMap

structure Consistent (fs : VirtioFs) : Prop where
  injective : ∀ ino ino' p, fs.inodeMap.getPath ino = some p → fs.inodeMap.getPath ino' = some p → ino = ino'
  root : fs.inodeMap.getPath rootId = some fs.rootDir
  bound : ∀ ino p, fs.inodeMap.getPath ino = some p → ino < fs.inodeMap.nextInode

theorem Consistent.congr {fs' : VirtioFs} (h : Consistent fs) (hroot : fs'.rootDir = fs.rootDir)
    (hnext : fs'.inodeMap.nextInode = fs.inodeMap.nextInode)
    (hpath : ∀ ino, fs'.inodeMap.getPath ino = fs.inodeMap.getPath ino) : Consistent fs' := by
  refine ⟨?_, ?_, ?_⟩
  · intro ino ino' p hp hp'
    rw [hpath] at hp hp'
    exact h.injective ino ino' p hp hp'
  · rw [hpath, hroot]
    exact h.root
  · intro ino p hp
    rw [hpath] at hp
    rw [hnext]
    exact h.bound ino p hp

namespace VirtioFs

theorem new_consistent (root : PathBuf) : Consistent (VirtioFs.new root) := by
  have hpath : ∀ ino, (VirtioFs.new root).inodeMap.getPath ino = if ino = rootId then some root else none :=
    fun ino => InodeMap.getPath_insert ⟨2, 1, ∅, ∅⟩ 2 rootId ino root
  refine ⟨?_, ?_, ?_⟩
  · intro ino ino' p h h'
    rw [hpath] at h h'
    split at h <;> split at h' <;> simp_all
  · rw [hpath, if_pos rfl]
    rfl
  · intro ino p h
    rw [hpath] at h
    split at h
    · subst ino
      exact Nat.one_lt_two
    · cases h

theorem lookupOrInsert_consistent (h : Consistent fs) (path : PathBuf) :
    Consistent { fs with inodeMap := (fs.inodeMap.lookupOrInsert host path).2 } := by
  unfold InodeMap.lookupOrInsert
  cases hfind : fs.inodeMap.findInode host path with
  | some ino => exact h
  | none =>
    have hpath := InodeMap.getPath_insert fs.inodeMap (fs.inodeMap.nextInode + 1) fs.inodeMap.nextInode
    have hnew := InodeMap.getPath_ne_of_findInode hfind
    refine ⟨?_, ?_, ?_⟩
    · intro ino ino' p hp hp'
      rw [hpath] at hp hp'
      split at hp <;> split at hp'
      · omega
      · cases hp
        exact absurd hp' (hnew ino')
      · cases hp'
        exact absurd hp (hnew ino)
      · exact h.injective ino ino' p hp hp'
    · rw [hpath, if_neg (h.bound rootId _ h.root).ne]
      exact h.root
    · intro ino p hp
      rw [hpath] at hp
      split at hp
      · subst ino
        exact Nat.lt_succ_self _
      · exact (h.bound ino p hp).trans (Nat.lt_succ_self _)

theorem kept_consistent (host : Host) : Kept host Consistent where
  call := fun _ _ h => ⟨h.injective, h.root, h.bound⟩
  lookupOrInsert := fun _ path h => lookupOrInsert_consistent h path
  openHandle := fun _ _ h => ⟨h.injective, h.root, h.bound⟩
  release := fun _ _ h => ⟨h.injective, h.root, h.bound⟩

end VirtioFs

def renameNoreplace : Nat := 1 <<< 0

/-- The inodes of what lies at `old` and below have moved to `new`, and the inode of what was at `new`
has not stayed there. -/
structure Carried (old new : PathBuf) (flags : Nat) (fs fs' : VirtioFs) : Prop where
  moved : ∀ ino rest, fs.inodeMap.getPath ino = some (old.extend rest) →
    fs'.inodeMap.getPath ino = some (new.extend rest)
  replaced : old ≠ new → flags &&& renameNoreplace = 0 → ∀ ino, fs.inodeMap.getPath ino = some new →
    fs'.inodeMap.getPath ino ≠ some new

/-- The moves that a new path for one inode is enough for: the shared directory stays, no inode lies
below `old`, and no inode is at `new`, save where nothing can have been there and `old` has no inode. -/
structure Simple (old new : PathBuf) (flags : Nat) (fs : VirtioFs) : Prop where
  root : old ≠ fs.rootDir
  leaf : ∀ ino rest, fs.inodeMap.getPath ino = some (old.extend rest) → rest = []
  vacant : (∀ ino, fs.inodeMap.getPath ino ≠ some new) ∨
    (flags &&& renameNoreplace ≠ 0 ∧ ∀ ino, fs.inodeMap.getPath ino ≠ some old)

namespace VirtioFs

variable {fs' : VirtioFs} {flags : Nat}

theorem getPath_renamePath_self (ino : Nat) :
    (fs.inodeMap.renamePath host p p).getPath ino = fs.inodeMap.getPath ino := by
  cases hfind : fs.inodeMap.findInode host p with
  | none => rw [InodeMap.renamePath_of_none hfind]
  | some i =>
    rw [InodeMap.getPath_renamePath hfind]
    split
    · subst ino
      exact (InodeMap.getPath_of_findInode hfind).symm
    · rfl

theorem renamed_known_iff (h : Consistent fs) (hne : old ≠ new) (hroot : fs'.rootDir = fs.rootDir)
    (hmap : fs'.inodeMap = fs.inodeMap.renamePath host old new) {i : Nat}
    (hfind : fs.inodeMap.findInode host old = some i) :
    Consistent fs' ∧ Carried old new flags fs fs' ↔ Simple old new flags fs := by
  have hi := InodeMap.getPath_of_findInode hfind
  have hpath : ∀ ino, fs'.inodeMap.getPath ino = if ino = i then some new else fs.inodeMap.getPath ino := by
    rw [hmap]
    exact InodeMap.getPath_renamePath hfind
  constructor
  · rintro ⟨hconsistent, hcarried⟩
    have hvacant : ∀ ino, fs.inodeMap.getPath ino ≠ some new := by
      intro ino hino
      have hother : ino ≠ i := by
        rintro rfl
        exact hne (Option.some.inj (hi.symm.trans hino))
      exact hother (hconsistent.injective ino i new (by rw [hpath, if_neg hother, hino]) (by rw [hpath, if_pos rfl]))
    refine ⟨?_, ?_, .inl hvacant⟩
    · rintro rfl
      obtain rfl := h.injective rootId i _ h.root hi
      have hmoved := hconsistent.root
      rw [hpath, if_pos rfl, hroot] at hmoved
      exact hne (Option.some.inj hmoved).symm
    · intro ino rest hino
      by_contra hrest
      have hother : ino ≠ i := by
        rintro rfl
        exact hrest (PathBuf.extend_eq_self.mp (Option.some.inj (hino.symm.trans hi)))
      have hmoved := hcarried.moved ino rest hino
      rw [hpath, if_neg hother, hino] at hmoved
      exact hne (PathBuf.extend_left_inj.mp (Option.some.inj hmoved))
  · intro hsimple
    have hvacant : ∀ ino, fs.inodeMap.getPath ino ≠ some new := hsimple.vacant.resolve_right fun hnone => hnone.2 i hi
    refine ⟨⟨?_, ?_, ?_⟩, ?_, ?_⟩
    · intro ino ino' p hp hp'
      rw [hpath] at hp hp'
      split at hp <;> split at hp'
      · omega
      · cases hp
        exact absurd hp' (hvacant ino')
      · cases hp'
        exact absurd hp (hvacant ino)
      · exact h.injective ino ino' p hp hp'
    · have hother : rootId ≠ i := by
        rintro rfl
        exact hsimple.root (Option.some.inj (hi.symm.trans h.root))
      rw [hpath, if_neg hother, hroot]
      exact h.root
    · intro ino p hp
      rw [hmap, InodeMap.renamePath_nextInode]
      rw [hpath] at hp
      split at hp
      · subst ino
        exact h.bound i old hi
      · exact h.bound ino p hp
    · intro ino rest hino
      obtain rfl := hsimple.leaf ino rest hino
      rw [PathBuf.extend_nil] at hino
      rw [hpath, if_pos (h.injective ino i old hino hi), PathBuf.extend_nil]
    · intro _ _ ino hino
      exact absurd hino (hvacant ino)

theorem renamed_unknown_iff (h : Consistent fs) (hne : old ≠ new) (hroot : fs'.rootDir = fs.rootDir)
    (hmap : fs'.inodeMap = fs.inodeMap.renamePath host old new)
    (hfind : fs.inodeMap.findInode host old = none) :
    Consistent fs' ∧ Carried old new flags fs fs' ↔ Simple old new flags fs := by
  have hold := InodeMap.getPath_ne_of_findInode hfind
  rw [InodeMap.renamePath_of_none hfind] at hmap
  constructor
  · rintro ⟨-, hcarried⟩
    refine ⟨?_, ?_, ?_⟩
    · rintro rfl
      exact hold rootId h.root
    · intro ino rest hino
      have hmoved := hcarried.moved ino rest hino
      rw [hmap, hino] at hmoved
      exact absurd (PathBuf.extend_left_inj.mp (Option.some.inj hmoved)) hne
    · by_cases hflags : flags &&& renameNoreplace = 0
      · refine .inl fun ino hino => hcarried.replaced hne hflags ino hino ?_
        rw [hmap, hino]
      · exact .inr ⟨hflags, hold⟩
  · intro hsimple
    refine ⟨h.congr hroot (by rw [hmap]) (fun ino => by rw [hmap]), ?_, ?_⟩
    · intro ino rest hino
      obtain rfl := hsimple.leaf ino rest hino
      rw [PathBuf.extend_nil] at hino
      exact absurd hino (hold ino)
    · intro _ hflags ino hino
      obtain hvacant | ⟨hnoreplace, -⟩ := hsimple.vacant
      · exact absurd hino (hvacant ino)
      · exact absurd hflags hnoreplace

theorem renamed_iff (h : Consistent fs) (hroot : fs'.rootDir = fs.rootDir)
    (hmap : fs'.inodeMap = fs.inodeMap.renamePath host old new) :
    Consistent fs' ∧ Carried old new flags fs fs' ↔ (old ≠ new → Simple old new flags fs) := by
  by_cases hne : old = new
  · subst hne
    have hpath : ∀ ino, fs'.inodeMap.getPath ino = fs.inodeMap.getPath ino := by
      rw [hmap]
      exact getPath_renamePath_self
    refine iff_of_true ⟨?_, ?_, ?_⟩ fun hself => absurd rfl hself
    · exact h.congr hroot (by rw [hmap, InodeMap.renamePath_nextInode]) hpath
    · intro ino rest hino
      rw [hpath, hino]
    · exact fun hself => absurd rfl hself
  · rw [forall_prop_of_true hne]
    cases hfind : fs.inodeMap.findInode host old with
    | none => exact renamed_unknown_iff h hne hroot hmap hfind
    | some i => exact renamed_known_iff h hne hroot hmap hfind

def renameRequest (header : InHeader) (body : Bytes) : Option (Nat × Nat × Nat) :=
  match Opcode.ofNat? header.opcode with
  | some .rename => (renameIn.read? body).map fun renameIn' => (renameIn.size, renameIn'.newdir, 0)
  | some .rename2 =>
    (rename2In.read? body).map fun rename2In' => (rename2In.size, rename2In'.newdir, rename2In'.flags)
  | _ => none

def renamePaths (fs : VirtioFs) (header : InHeader) (body : Bytes) (size newdir : Nat) :
    Option (PathBuf × PathBuf) := do
  let oldName ← cstrFromBytes (body.drop size)
  let newName ← cstrFromBytes ((body.drop size).drop (oldName.utf8ByteSize + 1))
  let oldParent ← fs.inodeMap.getPath header.nodeid
  let newParent ← fs.inodeMap.getPath newdir
  return (oldParent.join (.ofStr oldName), newParent.join (.ofStr newName))

def Renames (host : Host) (fs : VirtioFs) (header : InHeader) (body : Bytes) (old new : PathBuf) (flags : Nat) : Prop :=
  ∃ size newdir, renameRequest header body = some (size, newdir, flags) ∧
    renamePaths fs header body size newdir = some (old, new) ∧
    ((renameWithFlags host old new flags).exec fs).1 = .ok ()

def Renamed (host : Host) (fs : VirtioFs) (request : Bytes) (old new : PathBuf) (flags : Nat) : Prop :=
  InHeader.size ≤ request.length ∧
    Renames host fs (InHeader.parse request) (request.drop InHeader.size) old new flags

section Rename

variable {header : InHeader} {body : Bytes} {size newdir : Nat} {f : PathBuf → PathBuf → Handler Bytes}
  {Q : Bytes → VirtioFs → Prop} {E : Fault → VirtioFs → Prop}

def renameNames (header : InHeader) (body : Bytes) (size newdir : Nat) (f : PathBuf → PathBuf → Handler Bytes) :
    Handler Bytes := do
  let namesBody ← sliceFrom body size
  let oldName ← readName namesBody
  let newName ← readName (← sliceFrom namesBody (oldName.utf8ByteSize + 1))
  let oldParent ← getPath header.nodeid
  let newParent ← getPath newdir
  f (oldParent.join (.ofStr oldName)) (newParent.join (.ofStr newName))

theorem renameNames_wp (hsize : size ≤ body.length)
    (hnone : renamePaths fs header body size newdir = none → ∀ fault, E fault fs)
    (hsome : ∀ old new, renamePaths fs header body size newdir = some (old, new) → (f old new).Wp Q E fs) :
    (renameNames header body size newdir f).Wp Q E fs := by
  apply wp_sliceFrom_bind hsize
  apply wp_lookup_bind (exec_orFail _ _ _)
  · intro hold
    exact hnone (by simp [renamePaths, hold]) _
  intro oldName hold
  apply wp_sliceFrom_bind (size_lt_of_cstrFromBytes hold)
  apply wp_lookup_bind (exec_orFail _ _ _)
  · intro hnew
    exact hnone (by simp [renamePaths, hold, hnew, -List.drop_drop]) _
  intro newName hnew
  apply wp_lookup_bind (exec_getPath _ _)
  · intro hparent
    exact hnone (by simp [renamePaths, hparent]) _
  intro oldParent hp
  apply wp_lookup_bind (exec_getPath _ _)
  · intro hparent
    exact hnone (by simp [renamePaths, hparent]) _
  intro newParent hq
  exact hsome _ _ (by simp [renamePaths, hold, hnew, hp, hq, -List.drop_drop])

def SameMap (fs t : VirtioFs) : Prop := t.rootDir = fs.rootDir ∧ t.inodeMap = fs.inodeMap

theorem ask_sameMap (c : HostCall) : (ask host c).Keeps (SameMap fs) fun _ => True := by
  apply Keeps.bind (R := fun _ => True)
  · exact keeps_modifyGet fun _ h => h
  rintro (errno | result) _
  · exact keeps_throw
  · exact keeps_pure trivial

theorem cPath_sameMap (path : PathBuf) : (cPath path).Keeps (SameMap fs) fun _ => True := by
  unfold cPath
  cases cString path .empty with
  | none => exact keeps_throw
  | some text => exact keeps_pure trivial

theorem renameWithFlags_sameMap (old new : PathBuf) (flags : Nat) :
    (renameWithFlags host old new flags).Keeps (SameMap fs) fun _ => True := by
  apply Keeps.ite
  · apply (cPath_sameMap old).bind
    intro cOld _
    apply (cPath_sameMap new).bind
    intro cNew _
    exact ask_sameMap _
  · exact ask_sameMap _

def Done (host : Host) (fs : VirtioFs) (header : InHeader) (body : Bytes) (t : VirtioFs) : Prop :=
  ∃ old new flags, Renames host fs header body old new flags ∧ t.rootDir = fs.rootDir ∧
    t.inodeMap = fs.inodeMap.renamePath host old new

def Undone (host : Host) (fs : VirtioFs) (header : InHeader) (body : Bytes) (t : VirtioFs) : Prop :=
  SameMap fs t ∧ ∀ old new flags, ¬ Renames host fs header body old new flags

theorem Renames.unique {old new old' new' : PathBuf} {flags flags' : Nat} (h : Renames host fs header body old new flags)
    (h' : Renames host fs header body old' new' flags') : old = old' ∧ new = new' ∧ flags = flags' := by
  obtain ⟨size, newdir, hrequest, hpaths, -⟩ := h
  obtain ⟨size', newdir', hrequest', hpaths', -⟩ := h'
  cases hrequest.symm.trans hrequest'
  cases hpaths.symm.trans hpaths'
  exact ⟨rfl, rfl, rfl⟩

theorem undone_of_none (h : renameRequest header body = none) : Undone host fs header body fs := by
  refine ⟨⟨rfl, rfl⟩, ?_⟩
  rintro old new flags ⟨size, newdir, hrequest, -⟩
  rw [h] at hrequest
  cases hrequest

theorem renameNames_done (host : Host) (fs : VirtioFs) {flags : Nat}
    (hrequest : renameRequest header body = some (size, newdir, flags))
    (hsize : size ≤ body.length) :
    (renameNames header body size newdir fun old new => do
      renameWithFlags host old new flags
      renamePath host old new
      return ok header).Wp (fun _ t => Done host fs header body t) (fun _ t => Undone host fs header body t) fs := by
  have hunique : ∀ {old new flags'}, Renames host fs header body old new flags' →
      flags' = flags ∧ renamePaths fs header body size newdir = some (old, new) := by
    rintro old new flags' ⟨size', newdir', hrequest', hpaths, -⟩
    cases hrequest.symm.trans hrequest'
    exact ⟨rfl, hpaths⟩
  apply renameNames_wp hsize
  · intro hnone _
    refine ⟨⟨rfl, rfl⟩, fun old new flags' hrenames => ?_⟩
    cases hnone.symm.trans (hunique hrenames).2
  intro old new hpaths
  have hsame : SameMap fs ((renameWithFlags host old new flags).exec fs).2 :=
    (renameWithFlags_sameMap old new flags fs ⟨rfl, rfl⟩).state
  apply Wp.bind
  unfold Wp
  cases hrun : (renameWithFlags host old new flags).exec fs with
  | mk outcome t =>
    rw [hrun] at hsame
    cases outcome with
    | error fault =>
      refine ⟨hsame, ?_⟩
      rintro old' new' flags' hrenames
      obtain ⟨rfl, hpaths'⟩ := hunique hrenames
      cases hpaths.symm.trans hpaths'
      obtain ⟨_, _, _, _, hok⟩ := hrenames
      rw [hrun] at hok
      cases hok
    | ok _ =>
      refine ⟨old, new, flags, ⟨size, newdir, hrequest, hpaths, by rw [hrun]⟩, hsame.1, ?_⟩
      exact congrArg (InodeMap.renamePath host · old new) hsame.2

theorem renameWithFlags_zero (old new : PathBuf) : renameWithFlags host old new 0 = ask host (.rename old new) :=
  if_neg fun h => h rfl

theorem handleRename_done (hopcode : Opcode.ofNat? header.opcode = some .rename) :
    (handleRename host header body).Wp (fun _ t => Done host fs header body t)
      (fun _ t => Undone host fs header body t) fs := by
  apply wp_lookup_bind (exec_orFail _ _ _)
  · intro hread
    exact undone_of_none (by simp [renameRequest, hopcode, hread])
  intro renameIn' hread
  have hrequest : renameRequest header body = some (renameIn.size, renameIn'.newdir, 0) := by
    simp [renameRequest, hopcode, hread]
  have hdone := renameNames_done host fs hrequest (Layout.size_le_of_read? hread)
  simp only [renameWithFlags_zero] at hdone
  exact hdone

theorem handleRename2_done (hopcode : Opcode.ofNat? header.opcode = some .rename2) :
    (handleRename2 host header body).Wp (fun _ t => Done host fs header body t)
      (fun _ t => Undone host fs header body t) fs := by
  apply wp_lookup_bind (exec_orFail _ _ _)
  · intro hread
    exact undone_of_none (by simp [renameRequest, hopcode, hread])
  intro rename2In' hread
  exact renameNames_done host fs (by simp [renameRequest, hopcode, hread]) (Layout.size_le_of_read? hread)

end Rename

theorem dispatch_done (host : Host) (fs : VirtioFs) {request : Bytes} (hlen : InHeader.size ≤ request.length)
    (hopcode : Opcode.ofNat? (InHeader.parse request).opcode ∈ [some .rename, some .rename2]) :
    (dispatch host request).Wp
      (fun _ t => Done host fs (InHeader.parse request) (request.drop InHeader.size) t)
      (fun _ t => Undone host fs (InHeader.parse request) (request.drop InHeader.size) t) fs := by
  apply wp_sliceFrom_bind hlen
  rcases List.mem_pair.mp hopcode with hrename | hrename
  · rw [hrename]
    exact handleRename_done hrename
  · rw [hrename]
    exact handleRename2_done hrename

theorem dispatch_consistent {request : Bytes} (hlen : InHeader.size ≤ request.length) (h : Consistent fs)
    (hopcode : Opcode.ofNat? (InHeader.parse request).opcode ∉ [some .rename, some .rename2]) :
    Consistent ((dispatch host request).exec fs).2 := by
  have hserves := dispatch_serves (kept_consistent host) hlen
    (fun opcode hsome hrename => by
      rw [hsome] at hopcode
      rcases hrename with rfl | rfl <;> simp at hopcode) fs h
  exact Ends.state (R := fun _ => True)
    (hserves.mono (fun _ _ ha => ⟨ha.1, trivial⟩) fun _ _ he => he.1)

theorem handleFuseRequest_cases (host : Host) (request : Bytes) (h : Consistent fs) :
    (∃ old new flags, Renamed host fs request old new flags ∧
      (handleFuseRequest host request fs).2.rootDir = fs.rootDir ∧
      (handleFuseRequest host request fs).2.inodeMap = fs.inodeMap.renamePath host old new) ∨
    (Consistent (handleFuseRequest host request fs).2 ∧ ∀ old new flags, ¬ Renamed host fs request old new flags) := by
  unfold handleFuseRequest
  by_cases hlen : request.length < InHeader.size
  · rw [if_pos hlen]
    exact .inr ⟨h, fun _ _ _ hrenamed => absurd hrenamed.1 (Nat.not_le.mpr hlen)⟩
  rw [if_neg hlen]
  rw [Nat.not_lt] at hlen
  by_cases hopcode : Opcode.ofNat? (InHeader.parse request).opcode ∈ [some .rename, some .rename2]
  · have hdone := dispatch_done host fs hlen hopcode
    unfold Wp at hdone
    cases hrun : (dispatch host request).exec fs with
    | mk outcome t =>
      rw [hrun] at hdone
      cases outcome with
      | ok response =>
        obtain ⟨old, new, flags, hrenames, hroot, hmap⟩ := hdone
        exact .inl ⟨old, new, flags, ⟨hlen, hrenames⟩, hroot, hmap⟩
      | error fault =>
        obtain ⟨⟨hroot, hmap⟩, hnone⟩ := hdone
        refine .inr ⟨h.congr hroot (by rw [hmap]) (fun ino => by rw [hmap]), ?_⟩
        exact fun old new flags hrenamed => hnone old new flags hrenamed.2
  · refine .inr ⟨dispatch_consistent hlen h hopcode, ?_⟩
    rintro old new flags ⟨-, size, newdir, hrequest, -⟩
    unfold renameRequest at hrequest
    split at hrequest
    · simp_all
    · simp_all
    · cases hrequest

def RenamesSimple (host : Host) (fs : VirtioFs) (request : Bytes) : Prop :=
  ∀ old new flags, Renamed host fs request old new flags → old ≠ new → Simple old new flags fs

theorem step_consistent_iff {s t : VirtioFs} {request : Bytes} (hstep : Step host s request t) (h : Consistent s) :
    (Consistent t ∧ ∀ old new flags, Renamed host s request old new flags → Carried old new flags s t) ↔
      RenamesSimple host s request := by
  obtain rfl := hstep
  obtain ⟨old, new, flags, hrenamed, hroot, hmap⟩ | ⟨hconsistent, hnone⟩ := handleFuseRequest_cases host request h
  · have honly : ∀ {P : PathBuf → PathBuf → Nat → Prop},
        (∀ old new flags, Renamed host s request old new flags → P old new flags) ↔ P old new flags := by
      intro P
      refine ⟨fun hall => hall old new flags hrenamed, ?_⟩
      intro hP old' new' flags' hrenamed'
      obtain ⟨rfl, rfl, rfl⟩ := hrenamed.2.unique hrenamed'.2
      exact hP
    rw [RenamesSimple, honly, honly]
    exact renamed_iff h hroot hmap
  · refine iff_of_true ⟨hconsistent, ?_⟩ ?_
    · intro old new flags hrenamed
      exact absurd hrenamed (hnone old new flags)
    · intro old new flags hrenamed
      exact absurd hrenamed (hnone old new flags)

/-- In a run of requests the inode map stays a numbering of paths and follows every renaming exactly as
long as each renaming moves a path without inodes below it to one that no inode has. -/
theorem consistent_run_iff (host : Host) (root : PathBuf) (requests : List Bytes) (fs : VirtioFs) :
    (Consistent (VirtioFs.new root) ∧
      Steps (fun s request t => Step host s request t ∧ Consistent t ∧
        ∀ old new flags, Renamed host s request old new flags → Carried old new flags s t)
        (VirtioFs.new root) requests fs) ↔
    Steps (fun s request t => Step host s request t ∧ RenamesSimple host s request)
      (VirtioFs.new root) requests fs := by
  rw [and_iff_right (new_consistent root)]
  apply Steps.iff_of_step_and (I := fun _ => True) (fun _ _ _ _ _ => trivial) ?_ trivial (new_consistent root)
  intro s request t hstep _ hs
  exact step_consistent_iff hstep hs

def renameHost : Host :=
  { dirHost with
    answer := fun n c => match c with
      | .rename _ _ => .ok ()
      | c => dirHost.answer n c }

def renameTo (oldName newName : String) : Bytes :=
  u32 (InHeader.size + renameIn.size + oldName.utf8ByteSize + newName.utf8ByteSize + 2) ++ u32 12 ++ u64 1
    ++ u64 rootId ++ List.replicate 16 0 ++ u64 rootId ++ oldName.toUTF8.data.toList ++ [0]
    ++ newName.toUTF8.data.toList ++ [0]

def afterRename : VirtioFs :=
  (handleFuseRequest renameHost (renameTo "a" "b")
    (handleFuseRequest renameHost (lookupRequest "b")
      (handleFuseRequest renameHost (lookupRequest "a") (VirtioFs.new share)).2).2).2

theorem rename_onto_known_inconsistent : ¬ ∀ (host : Host) (root : PathBuf) (requests : List Bytes) (fs : VirtioFs),
    Steps (Step host) (VirtioFs.new root) requests fs → Consistent fs := by
  intro hall
  have hconsistent := hall renameHost share [lookupRequest "a", lookupRequest "b", renameTo "a" "b"] afterRename
    (.cons rfl (.cons rfl (.cons rfl (.nil _))))
  have ha : afterRename.inodeMap.getPath 2 = some ⟨true, [.text "srv", .text "share", .text "b"]⟩ := by
    decide
  have hb : afterRename.inodeMap.getPath 3 = some ⟨true, [.text "srv", .text "share", .text "b"]⟩ := by
    decide
  have hsame := hconsistent.injective 2 3 _ ha hb
  cases hsame

end VirtioFs

end CloneVmm.Virtio
