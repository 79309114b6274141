import Mathlib.Data.List.Basic

namespace CloneVmm.Lib

structure Path where
  absolute : Bool
  comps : List String
  deriving DecidableEq

namespace Path

def parse (s : String) : Path where
  absolute := s.toList.head? == some '/'
  comps := ((s.toList.splitOn '/').map String.ofList).filter fun c => c != "" && c != "."

def child (p : Path) (name : String) : Path := ⟨p.absolute, p.comps ++ [name]⟩

end Path

/-- `γ` is what a file holds: a text, or bytes. -/
inductive FileNode (γ : Type := String)
  | dir
  | file (content : γ)
  deriving DecidableEq

structure FileTree (γ : Type := String) where
  nodes : List (List String × FileNode γ)

namespace FileTree

variable {γ : Type} {t : FileTree γ} {cur comps : List String}

def node? (t : FileTree γ) (place : List String) : Option (FileNode γ) := t.nodes.lookup place

def advance (cur : List String) (c : String) : List String := if c = ".." then cur.dropLast else cur ++ [c]

def places : List String → List String → List (List String)
  | cur, [] => [cur]
  | cur, c :: comps => cur :: places (advance cur c) comps

def resolve (t : FileTree γ) : List String → List String → Option (FileNode γ)
  | cur, [] => t.node? cur
  | cur, c :: comps =>
    match t.node? cur with
    | some .dir => t.resolve (advance cur c) comps
    | _ => none

def start (cwd : List String) (p : Path) : List String := if p.absolute then [] else cwd

def target (cwd : List String) (p : Path) : List String := p.comps.foldl advance (start cwd p)

def pathPlaces (cwd : List String) (p : Path) : List (List String) := places (start cwd p) p.comps

def lookup (t : FileTree γ) (cwd : List String) (p : Path) : Option (FileNode γ) := t.resolve (start cwd p) p.comps

def pathExists (t : FileTree γ) (cwd : List String) (p : Path) : Bool := (t.lookup cwd p).isSome

def readToString (t : FileTree γ) (cwd : List String) (p : Path) : Option γ :=
  match t.lookup cwd p with
  | some (.file content) => some content
  | _ => none

def readDir (t : FileTree γ) (cwd : List String) (p : Path) : Option (List String) :=
  match t.lookup cwd p with
  | some .dir =>
    some (t.nodes.filterMap fun entry =>
      if entry.1 ≠ [] ∧ entry.1.dropLast = target cwd p then entry.1.getLast? else none)
  | _ => none

def without (t : FileTree γ) (P : List String → Bool) : FileTree γ := ⟨t.nodes.filter fun entry => !P entry.1⟩

def removeDirAll (t : FileTree γ) (cwd : List String) (p : Path) : Option (FileTree γ) :=
  match t.lookup cwd p with
  | some .dir => some (t.without (target cwd p).isPrefixOf)
  | _ => none

@[simp] theorem node?_without (t : FileTree γ) (P : List String → Bool) (place : List String) :
    (t.without P).node? place = if P place then none else t.node? place := by
  obtain ⟨nodes⟩ := t
  unfold without node?
  induction nodes with
  | nil => simp
  | cons entry nodes ih =>
    obtain ⟨place', node⟩ := entry
    dsimp only at ih ⊢
    by_cases hP : P place' = true
    · rw [List.filter_cons_of_neg (by simp [hP]), ih]
      by_cases heq : place = place'
      · subst heq
        simp [hP]
      · simp [List.lookup_cons, beq_false_of_ne heq]
    · rw [List.filter_cons_of_pos (by simp [hP])]
      by_cases heq : place = place'
      · subst heq
        simp [hP]
      · simp only [List.lookup_cons, beq_false_of_ne heq]
        exact ih

theorem resolve_without (t : FileTree γ) (P : List String → Bool) (cur comps : List String) :
    (t.without P).resolve cur comps = if (places cur comps).any P then none else t.resolve cur comps := by
  induction comps generalizing cur with
  | nil => simp [resolve, places]
  | cons c comps ih =>
    unfold resolve places
    rw [node?_without, List.any_cons]
    cases P cur with
    | true => simp
    | false =>
      rw [Bool.false_or, if_neg Bool.false_ne_true]
      cases t.node? cur with
      | none => simp
      | some node =>
        cases node with
        | dir => exact ih (advance cur c)
        | file content => simp

theorem places_append (cur comps : List String) (c : String) :
    places cur (comps ++ [c]) = places cur comps ++ [advance (comps.foldl advance cur) c] := by
  induction comps generalizing cur with
  | nil => rfl
  | cons c' comps ih => simp [places, ih]

theorem target_mem_places (cur comps : List String) : comps.foldl advance cur ∈ places cur comps := by
  induction comps generalizing cur with
  | nil => simp [places]
  | cons c comps ih => exact List.mem_cons_of_mem _ (ih (advance cur c))

theorem resolve_append (t : FileTree γ) (cur comps : List String) (c : String) :
    t.resolve cur (comps ++ [c]) = match t.resolve cur comps with
      | some .dir => t.node? (advance (comps.foldl advance cur) c)
      | _ => none := by
  induction comps generalizing cur with
  | nil => rfl
  | cons c' comps ih =>
    simp only [List.cons_append, resolve, List.foldl_cons]
    cases t.node? cur with
    | none => rfl
    | some node =>
      cases node with
      | dir => exact ih (advance cur c')
      | file content => rfl

theorem resolve_target (t : FileTree γ) (cur comps : List String) {node : FileNode γ}
    (h : t.resolve cur comps = some node) : t.node? (comps.foldl advance cur) = some node := by
  induction comps generalizing cur with
  | nil => exact h
  | cons c comps ih =>
    unfold resolve at h
    split at h
    · exact ih (advance cur c) h
    · cases h

def setNode (t : FileTree γ) (place : List String) (node : FileNode γ) : FileTree γ :=
  ⟨(place, node) :: t.nodes.filter fun entry => entry.1 != place⟩

def makeDirs (t : FileTree γ) : List String → List String → Option (FileTree γ)
  | _, [] => some t
  | cur, c :: comps =>
    match t.node? (advance cur c) with
    | some .dir => t.makeDirs (advance cur c) comps
    | some (.file _) => none
    | none => (t.setNode (advance cur c) .dir).makeDirs (advance cur c) comps

def createDirAll (t : FileTree γ) (cwd : List String) (p : Path) : Option (FileTree γ) :=
  match t.node? (start cwd p) with
  | some .dir => t.makeDirs (start cwd p) p.comps
  | _ => none

def writeFile (t : FileTree γ) (cwd : List String) (p : Path) (content : γ) : Option (FileTree γ) :=
  match t.lookup cwd ⟨p.absolute, p.comps.dropLast⟩ with
  | some .dir =>
    match t.node? (target cwd p) with
    | some .dir => none
    | _ => some (t.setNode (target cwd p) (.file content))
  | _ => none

@[simp] theorem node?_setNode (t : FileTree γ) (place : List String) (node : FileNode γ) (place' : List String) :
    (t.setNode place node).node? place' = if place' = place then some node else t.node? place' := by
  have hwithout : (t.setNode place node).nodes = (place, node) :: (t.without (· == place)).nodes := rfl
  rw [node?, hwithout, List.lookup_cons]
  by_cases heq : place' = place
  · simp [heq]
  · have hrest := node?_without t (· == place) place'
    rw [node?] at hrest
    rw [beq_false_of_ne heq, if_neg heq]
    simpa [heq] using hrest

def Extends (t t' : FileTree γ) : Prop := ∀ place node, t.node? place = some node → t'.node? place = some node

namespace Extends

variable {t' t'' : FileTree γ}

theorem refl (t : FileTree γ) : t.Extends t := fun _ _ h => h

theorem trans (h : t.Extends t') (h' : t'.Extends t'') : t.Extends t'' :=
  fun place node hnode => h' place node (h place node hnode)

theorem setNode {place : List String} (h : t.node? place = none) (node : FileNode γ) :
    t.Extends (t.setNode place node) := by
  intro place' node' hnode
  rw [node?_setNode]
  split
  · subst place'
    rw [h] at hnode
    cases hnode
  · exact hnode

theorem resolve (h : t.Extends t') {node : FileNode γ} (hnode : t.resolve cur comps = some node) :
    t'.resolve cur comps = some node := by
  induction comps generalizing cur with
  | nil => exact h cur node hnode
  | cons c comps ih =>
    unfold FileTree.resolve at hnode ⊢
    split at hnode
    · rename_i hdir
      rw [h cur .dir hdir]
      exact ih hnode
    · cases hnode

theorem readToString (h : t.Extends t') {cwd : List String} {p : Path} {content : γ}
    (hread : t.readToString cwd p = some content) : t'.readToString cwd p = some content := by
  unfold FileTree.readToString at hread ⊢
  split at hread
  · rename_i hlookup
    cases hread
    rw [lookup, h.resolve hlookup]
  · cases hread

theorem pathExists (h : t.Extends t') {cwd : List String} {p : Path} (hexists : t.pathExists cwd p = true) :
    t'.pathExists cwd p = true := by
  obtain ⟨node, hnode⟩ := Option.isSome_iff_exists.mp hexists
  exact Option.isSome_iff_exists.mpr ⟨node, h.resolve hnode⟩

end Extends

theorem readToString_eq_some {cwd : List String} {p : Path} {content : γ} :
    t.readToString cwd p = some content ↔ t.lookup cwd p = some (.file content) := by
  unfold readToString
  cases t.lookup cwd p with
  | none => simp
  | some node => cases node <;> simp

def OnlyNewAt (P : List String → Prop) (t t' : FileTree γ) : Prop :=
  ∀ place content, t'.node? place = some (.file content) → P place ∨ t.node? place = some (.file content)

theorem makeDirs_spec {t t' : FileTree γ} (h : t.makeDirs cur comps = some t') (hcur : t.node? cur = some .dir) :
    t.Extends t' ∧ t'.resolve cur comps = some .dir ∧ OnlyNewAt (fun _ => False) t t' := by
  induction comps generalizing t cur with
  | nil =>
    cases h
    exact ⟨.refl _, hcur, fun _ _ hnode => .inr hnode⟩
  | cons c comps ih =>
    unfold makeDirs at h
    split at h
    · rename_i hdir
      obtain ⟨hext, hresolve, hfiles⟩ := ih h hdir
      refine ⟨hext, ?_, hfiles⟩
      rw [resolve, hext cur .dir hcur]
      exact hresolve
    · cases h
    · rename_i hnone
      obtain ⟨hext, hresolve, hfiles⟩ := ih h (by rw [node?_setNode, if_pos rfl])
      have hext' := (Extends.setNode hnone .dir).trans hext
      refine ⟨hext', ?_, ?_⟩
      · rw [resolve, hext' cur .dir hcur]
        exact hresolve
      · intro place content hnode
        rcases hfiles place content hnode with hfalse | hold
        · exact .inl hfalse
        · rw [node?_setNode] at hold
          split at hold
          · cases hold
          · exact .inr hold

theorem createDirAll_spec {t t' : FileTree γ} {cwd : List String} {p : Path} (h : t.createDirAll cwd p = some t') :
    t.Extends t' ∧ t'.lookup cwd p = some .dir ∧ OnlyNewAt (fun _ => False) t t' := by
  unfold createDirAll at h
  split at h
  · rename_i hstart
    exact makeDirs_spec h hstart
  · cases h

theorem target_child {cwd : List String} {p : Path} {name : String} (hname : name ≠ "..") :
    target cwd (p.child name) = target cwd p ++ [name] := by
  rw [target, Path.child, List.foldl_append, List.foldl_cons, List.foldl_nil, advance, if_neg hname]
  rfl

theorem lookup_child {cwd : List String} {p : Path} {name : String} (hname : name ≠ "..")
    (hdir : t.lookup cwd p = some .dir) : t.lookup cwd (p.child name) = t.node? (target cwd p ++ [name]) := by
  have happend := resolve_append t (start cwd p) p.comps name
  rw [lookup] at hdir
  rw [hdir, advance, if_neg hname] at happend
  exact happend

theorem writeFile_child_spec {t t' : FileTree γ} {cwd : List String} {p : Path} {name : String} {content : γ}
    (hname : name ≠ "..") (h : t.writeFile cwd (p.child name) content = some t')
    (hnew : ∀ content, t.node? (target cwd p ++ [name]) ≠ some (.file content)) :
    t.Extends t' ∧ t'.lookup cwd (p.child name) = some (.file content) ∧
      OnlyNewAt (· = target cwd p ++ [name]) t t' := by
  unfold writeFile at h
  rw [Path.child, List.dropLast_concat, ← Path.child, target_child hname] at h
  split at h
  · rename_i hdir
    split at h
    · cases h
    · rename_i hnode
      cases h
      have hnone : t.node? (target cwd p ++ [name]) = none := by
        cases hplace : t.node? (target cwd p ++ [name]) with
        | none => rfl
        | some node =>
          cases node with
          | dir => exact absurd hplace hnode
          | file content => exact absurd hplace (hnew content)
      have hext := Extends.setNode hnone (.file content)
      refine ⟨hext, ?_, ?_⟩
      · have hdir' : t.lookup cwd p = some .dir := hdir
        rw [lookup_child hname (hext.resolve hdir'), node?_setNode, if_pos rfl]
      · intro place content' hplace
        rw [node?_setNode] at hplace
        split at hplace
        · exact .inl ‹_›
        · exact .inr hplace
  · cases h

theorem writeFile_eq_some {t t' : FileTree γ} {cwd : List String} {p : Path} {content : γ} :
    t.writeFile cwd p content = some t' ↔ t.lookup cwd ⟨p.absolute, p.comps.dropLast⟩ = some .dir ∧
      t.node? (target cwd p) ≠ some .dir ∧ t' = t.setNode (target cwd p) (.file content) := by
  unfold writeFile
  constructor
  · intro h
    split at h
    · split at h
      · cases h
      · cases h
        exact ⟨‹_›, ‹_›, rfl⟩
    · cases h
  · rintro ⟨hdir, hnode, rfl⟩
    rw [hdir]
    dsimp only
    split
    · exact absurd ‹_› hnode
    · rfl

/-- Directories and files stay; only a file at a place in `P` can be new or hold something else. -/
structure Updates (P : List String → Prop) (t t' : FileTree γ) : Prop where
  dirs : ∀ place, t.node? place = some .dir → t'.node? place = some .dir
  files : ∀ place content, t.node? place = some (.file content) →
    ∃ content', t'.node? place = some (.file content') ∧ (P place ∨ content' = content)
  onlyNew : OnlyNewAt P t t'

namespace Updates

variable {P : List String → Prop} {t' t'' : FileTree γ} {cwd : List String} {p : Path}

theorem trans (h : Updates P t t') (h' : Updates P t' t'') : Updates P t t'' where
  dirs place hdir := h'.dirs place (h.dirs place hdir)
  files := by
    intro place content hnode
    obtain ⟨content', hnode', hsame⟩ := h.files place content hnode
    obtain ⟨content'', hnode'', hsame'⟩ := h'.files place content' hnode'
    refine ⟨content'', hnode'', ?_⟩
    rcases hsame' with hplace | rfl
    · exact .inl hplace
    · exact hsame
  onlyNew := by
    intro place content hnode
    rcases h'.onlyNew place content hnode with hplace | hold
    · exact .inl hplace
    · exact h.onlyNew place content hold

theorem of_extends (hext : t.Extends t') (hnew : OnlyNewAt P t t') : Updates P t t' where
  dirs place hdir := hext place .dir hdir
  files place content hnode := ⟨content, hext place _ hnode, .inr rfl⟩
  onlyNew := hnew

theorem of_createDirAll (h : t.createDirAll cwd p = some t') : Updates P t t' := by
  obtain ⟨hext, -, hfiles⟩ := createDirAll_spec h
  refine of_extends hext fun place content hnode => .inr ?_
  rcases hfiles place content hnode with hfalse | hold
  · exact hfalse.elim
  · exact hold

theorem of_writeFile {content : γ} (h : t.writeFile cwd p content = some t') (hplace : P (target cwd p)) :
    Updates P t t' := by
  obtain ⟨-, hnode, rfl⟩ := writeFile_eq_some.mp h
  refine ⟨fun place hdir => ?_, fun place content' hfile => ?_, fun place content' hfile => ?_⟩
  · have hne : place ≠ target cwd p := by
      rintro rfl
      exact hnode hdir
    rw [node?_setNode, if_neg hne, hdir]
  · by_cases heq : place = target cwd p
    · subst heq
      exact ⟨content, by rw [node?_setNode, if_pos rfl], .inl hplace⟩
    · exact ⟨content', by rw [node?_setNode, if_neg heq, hfile], .inr rfl⟩
  · rw [node?_setNode] at hfile
    split at hfile
    · rename_i heq
      exact .inl (heq ▸ hplace)
    · exact .inr hfile

theorem resolve_dir (h : Updates P t t') (hdir : t.resolve cur comps = some .dir) :
    t'.resolve cur comps = some .dir := by
  induction comps generalizing cur with
  | nil => exact h.dirs cur hdir
  | cons c comps ih =>
    unfold resolve at hdir ⊢
    split at hdir
    · rename_i hcur
      rw [h.dirs cur hcur]
      exact ih hdir
    · cases hdir

theorem resolve_file (h : Updates P t t') {content : γ} (hfile : t.resolve cur comps = some (.file content)) :
    ∃ content', t'.resolve cur comps = some (.file content') ∧
      (P (comps.foldl advance cur) ∨ content' = content) := by
  induction comps generalizing cur with
  | nil => exact h.files cur content hfile
  | cons c comps ih =>
    unfold resolve at hfile ⊢
    split at hfile
    · rename_i hcur
      rw [h.dirs cur hcur]
      exact ih hfile
    · cases hfile

theorem pathExists (h : Updates P t t') (hexists : t.pathExists cwd p = true) : t'.pathExists cwd p = true := by
  obtain ⟨node, hnode⟩ := Option.isSome_iff_exists.mp hexists
  apply Option.isSome_iff_exists.mpr
  cases node with
  | dir => exact ⟨.dir, h.resolve_dir hnode⟩
  | file content =>
    obtain ⟨content', hnode', -⟩ := h.resolve_file hnode
    exact ⟨.file content', hnode'⟩

theorem readToString (h : Updates P t t') {content : γ} (hread : t.readToString cwd p = some content)
    (hplace : ¬ P (target cwd p)) : t'.readToString cwd p = some content := by
  rw [readToString_eq_some] at hread ⊢
  obtain ⟨content', hnode, hsame⟩ := h.resolve_file hread
  rcases hsame with hfalse | rfl
  · exact absurd hfalse hplace
  · exact hnode

theorem readToString_child (h : Updates P t t') {name : String} (hname : name ≠ "..")
    (hdir : t.lookup cwd p = some .dir) (hplace : ¬ P (target cwd p ++ [name])) :
    t'.readToString cwd (p.child name) = t.readToString cwd (p.child name) := by
  apply Option.ext
  intro content
  constructor
  · intro hread
    rw [readToString_eq_some, lookup_child hname (h.resolve_dir hdir)] at hread
    rw [readToString_eq_some, lookup_child hname hdir]
    exact (h.onlyNew _ content hread).resolve_left hplace
  · intro hread
    refine h.readToString hread ?_
    rwa [target_child hname]

end Updates

theorem readToString_writeFile {t t' : FileTree γ} {cwd : List String} {p : Path} {name : String} {content : γ}
    (hname : name ≠ "..") (h : t.writeFile cwd (p.child name) content = some t') :
    t'.readToString cwd (p.child name) = some content := by
  have hupdates : Updates (fun _ => True) t t' := .of_writeFile h trivial
  obtain ⟨hdir, -, rfl⟩ := writeFile_eq_some.mp h
  rw [Path.child, List.dropLast_concat] at hdir
  have hdir' : (t.setNode (target cwd (p.child name)) (.file content)).lookup cwd p = some .dir :=
    hupdates.resolve_dir hdir
  rw [readToString_eq_some, lookup_child hname hdir', target_child hname, node?_setNode, if_pos rfl]

end FileTree

end CloneVmm.Lib
