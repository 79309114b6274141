import CloneVmm.Lib.Run
import Mathlib.Logic.Function.Basic

namespace CloneVmm.Controller

open CloneVmm.Lib

structure Codec (M : Type) where
  encode : M → List UInt8
  decode : List UInt8 → Option M
  decode_encode : ∀ m, decode (encode m) = some m

inductive PersistCall (M : Type)
  | serialized (m : M)
  | opened (m : M) (file : Nat)
  | written (m : M) (file : Nat)

namespace PersistCall

variable {M : Type}

def map : PersistCall M → M
  | serialized m | opened m _ | written m _ => m

def writing : PersistCall M → Bool
  | serialized _ => false
  | opened _ _ | written _ _ => true

end PersistCall

/-- The map, the running calls, and the files with the two names. `latest` is the map as it was last
serialized. -/
structure PersistState (M : Type) where
  tenants : M
  latest : Option M
  calls : Nat → Option (PersistCall M)
  files : List (List UInt8)
  tmp : Option Nat
  stateFile : Option Nat

inductive PersistStep (M : Type)
  | change (m : M)
  | serialize (call : Nat)
  | create (call : Nat)
  | write (call : Nat)
  | rename (call : Nat)

def overwrite (bs old : List UInt8) : List UInt8 := bs ++ old.drop bs.length

namespace PersistState

variable {M : Type}

def setCall (s : PersistState M) (i : Nat) (call : Option (PersistCall M)) : PersistState M :=
  { s with calls := Function.update s.calls i call }

def createTmp (s : PersistState M) (i : Nat) (m : M) : PersistState M :=
  match s.tmp with
  | some n => { s.setCall i (some (.opened m n)) with files := s.files.set n [] }
  | none =>
    { s.setCall i (some (.opened m s.files.length)) with files := s.files ++ [[]], tmp := some s.files.length }

def next (c : Codec M) (s : PersistState M) : PersistStep M → Option (PersistState M)
  | .change m => some { s with tenants := m }
  | .serialize i =>
    match s.calls i with
    | none => some { s.setCall i (some (.serialized s.tenants)) with latest := some s.tenants }
    | some _ => none
  | .create i =>
    match s.calls i with
    | some (.serialized m) => some (s.createTmp i m)
    | _ => none
  | .write i =>
    match s.calls i with
    | some (.opened m n) =>
      some { s.setCall i (some (.written m n)) with files := s.files.modify n (overwrite (c.encode m)) }
    | _ => none
  | .rename i =>
    match s.calls i, s.tmp with
    | some (.written _ _), some n => some { s.setCall i none with stateFile := some n, tmp := none }
    | _, _ => none

def start (m : M) (old left : Option (List UInt8)) : PersistState M where
  tenants := m
  latest := none
  calls := fun _ => none
  files := old.toList ++ left.toList
  tmp := left.map fun _ => old.toList.length
  stateFile := old.map fun _ => 0

def content (s : PersistState M) : Option (List UInt8) := s.stateFile.bind fun n => s.files[n]?

def Converged (c : Codec M) (s : PersistState M) : Prop :=
  (∀ i, s.calls i = none) → ∀ m ∈ s.latest, s.content.bind c.decode = some m

def InOrder (s : PersistState M) : PersistStep M → Prop
  | .rename i => (∀ j, j ≠ i → s.calls j = none) → ∀ call ∈ s.calls i, ∀ m ∈ s.latest, m = call.map
  | .change _ | .serialize _ | .create _ | .write _ => True

structure Exclusive (c : Codec M) (s : PersistState M) : Prop where
  alone : ∀ i j p q, s.calls i = some p → s.calls j = some q → p.writing = true → q.writing = true → i = j
  opened : ∀ i m n, s.calls i = some (.opened m n) → s.tmp = some n ∧ s.files[n]? = some []
  written : ∀ i m n, s.calls i = some (.written m n) → s.tmp = some n ∧ s.files[n]? = some (c.encode m)
  exists' : ∀ n ∈ s.tmp, n < s.files.length

def Overlapping (s : PersistState M) : Prop :=
  (∃ i j p q, i ≠ j ∧ s.calls i = some p ∧ s.calls j = some q ∧ p.writing = true ∧ q.writing = true) ∨
    (s.tmp = none ∧ ∃ i p, s.calls i = some p ∧ p.writing = true)

section Steps

variable {c : Codec M} {s s' : PersistState M} {a : PersistStep M} {i j : Nat} {call : PersistCall M}

theorem setCall_self {o : Option (PersistCall M)} : (s.setCall i o).calls i = o := Function.update_self _ _ _

theorem setCall_of_ne {o : Option (PersistCall M)} (h : j ≠ i) : (s.setCall i o).calls j = s.calls j :=
  Function.update_of_ne h _ _

theorem next_cases (h : s.next c a = some s') :
    (∃ m, a = .change m ∧ s' = { s with tenants := m }) ∨
      (∃ i, a = .serialize i ∧ s.calls i = none ∧
        s' = { s.setCall i (some (.serialized s.tenants)) with latest := some s.tenants }) ∨
      (∃ i m, a = .create i ∧ s.calls i = some (.serialized m) ∧ s' = s.createTmp i m) ∨
      (∃ i m n, a = .write i ∧ s.calls i = some (.opened m n) ∧
        s' = { s.setCall i (some (.written m n)) with files := s.files.modify n (overwrite (c.encode m)) }) ∨
      (∃ i m f n, a = .rename i ∧ s.calls i = some (.written m f) ∧ s.tmp = some n ∧
        s' = { s.setCall i none with stateFile := some n, tmp := none }) := by
  cases a with
  | change m =>
    cases h
    exact .inl ⟨m, rfl, rfl⟩
  | serialize i =>
    simp only [next] at h
    split at h
    · rename_i hi
      cases h
      exact .inr (.inl ⟨i, rfl, hi, rfl⟩)
    · cases h
  | create i =>
    simp only [next] at h
    split at h
    · rename_i m hi
      cases h
      exact .inr (.inr (.inl ⟨i, m, rfl, hi, rfl⟩))
    · cases h
  | write i =>
    simp only [next] at h
    split at h
    · rename_i m n hi
      cases h
      exact .inr (.inr (.inr (.inl ⟨i, m, n, rfl, hi, rfl⟩)))
    · cases h
  | rename i =>
    simp only [next] at h
    split at h
    · rename_i m f n hi htmp
      cases h
      exact .inr (.inr (.inr (.inr ⟨i, m, f, n, rfl, hi, htmp, rfl⟩)))
    · cases h

theorem createTmp_calls {m : M} (h : j ≠ i) : (s.createTmp i m).calls j = s.calls j := by
  unfold createTmp
  split <;> exact setCall_of_ne h

theorem createTmp_opened {m : M} (htmp : ∀ n ∈ s.tmp, n < s.files.length) :
    ∃ n, (s.createTmp i m).calls i = some (.opened m n) ∧ (s.createTmp i m).tmp = some n ∧
      (s.createTmp i m).files[n]? = some [] := by
  unfold createTmp
  split
  · rename_i n hn
    refine ⟨n, setCall_self, hn, ?_⟩
    exact List.getElem?_set_self (htmp n hn)
  · exact ⟨s.files.length, setCall_self, rfl, List.getElem?_concat_length⟩

theorem writing_next (h : s.next c a = some s') (ha : a ≠ .rename i) (hi : s.calls i = some call)
    (hcall : call.writing = true) : ∃ call', s'.calls i = some call' ∧ call'.writing = true := by
  obtain ⟨m, -, rfl⟩ | ⟨j, -, hj, rfl⟩ | ⟨j, m, -, hj, rfl⟩ | ⟨j, m, n, -, hj, rfl⟩ | ⟨j, m, f, n, rfl, -, -, rfl⟩ :=
    next_cases h
  · exact ⟨call, hi, hcall⟩
  · have hne : i ≠ j := by
      rintro rfl
      cases hi.symm.trans hj
    exact ⟨call, (setCall_of_ne hne).trans hi, hcall⟩
  · have hne : i ≠ j := by
      rintro rfl
      cases hi.symm.trans hj
      cases hcall
    exact ⟨call, (createTmp_calls hne).trans hi, hcall⟩
  · by_cases hne : i = j
    · subst hne
      exact ⟨.written m n, setCall_self, rfl⟩
    · exact ⟨call, (setCall_of_ne hne).trans hi, hcall⟩
  · have hne : i ≠ j := fun hij => ha (by rw [hij])
    exact ⟨call, (setCall_of_ne hne).trans hi, hcall⟩

theorem overlapping_of_rename (h : s.next c (.rename i) = some s') (hne : j ≠ i) (hj : s.calls j = some call)
    (hcall : call.writing = true) : s'.Overlapping := by
  have hother : PersistStep.rename (M := M) i ≠ .rename j := by
    rintro ⟨⟩
    exact hne rfl
  obtain ⟨call', hj', hcall'⟩ := writing_next h hother hj hcall
  obtain ⟨_, ha, -⟩ | ⟨_, ha, -⟩ | ⟨_, _, ha, -⟩ | ⟨_, _, _, ha, -⟩ | ⟨_, _, _, _, -, -, -, rfl⟩ := next_cases h
  iterate 4 cases ha
  exact .inr ⟨rfl, j, call', hj', hcall'⟩

theorem Overlapping.next (hs : s.Overlapping) (h : s.next c a = some s') : s'.Overlapping := by
  obtain ⟨i, j, p, q, hne, hi, hj, hp, hq⟩ | ⟨htmp, i, p, hi, hp⟩ := hs
  · by_cases hri : a = .rename i
    · subst hri
      exact overlapping_of_rename h hne.symm hj hq
    · by_cases hrj : a = .rename j
      · subst hrj
        exact overlapping_of_rename h hne hi hp
      · obtain ⟨p', hi', hp'⟩ := writing_next h hri hi hp
        obtain ⟨q', hj', hq'⟩ := writing_next h hrj hj hq
        exact .inl ⟨i, j, p', q', hne, hi', hj', hp', hq'⟩
  · have hnot : a ≠ .rename i := by
      rintro rfl
      obtain ⟨_, ha, -⟩ | ⟨_, ha, -⟩ | ⟨_, _, ha, -⟩ | ⟨_, _, _, ha, -⟩ | ⟨_, _, _, _, -, -, hsome, -⟩ := next_cases h
      iterate 4 cases ha
      rw [htmp] at hsome
      cases hsome
    obtain ⟨p', hi', hp'⟩ := writing_next h hnot hi hp
    obtain ⟨m, -, rfl⟩ | ⟨k, -, -, rfl⟩ | ⟨k, m, -, hk, rfl⟩ | ⟨k, m, n, -, -, rfl⟩ | ⟨_, _, _, _, -, -, hsome, -⟩ :=
      next_cases h
    · exact .inr ⟨htmp, i, p', hi', hp'⟩
    · exact .inr ⟨htmp, i, p', hi', hp'⟩
    · -- the second call opens a new file while the first still writes
      have hne : i ≠ k := by
        rintro rfl
        cases hi.symm.trans hk
        cases hp
      obtain ⟨n, hopened, -⟩ := createTmp_opened (s := s) (i := k) (m := m) (by rw [htmp]; nofun)
      exact .inl ⟨i, k, p', _, hne, hi', hopened, hp', rfl⟩
    · exact .inr ⟨htmp, i, p', hi', hp'⟩
    · rw [htmp] at hsome
      cases hsome

theorem Exclusive.next (hs : s.Exclusive c) (h : s.next c a = some s') : s'.Exclusive c ∨ s'.Overlapping := by
  obtain ⟨m, -, rfl⟩ | ⟨k, -, hk, rfl⟩ | ⟨k, m, -, hk, rfl⟩ | ⟨k, m, n, -, hk, rfl⟩ | ⟨k, m, f, n, -, hk, htmp, rfl⟩ :=
    next_cases h
  · exact .inl ⟨hs.alone, hs.opened, hs.written, hs.exists'⟩
  · have hold {j : Nat} {p : PersistCall M} (hj : (s.setCall k (some (.serialized s.tenants))).calls j = some p)
        (hp : p.writing = true) : s.calls j = some p := by
      by_cases hne : j = k
      · subst hne
        cases setCall_self.symm.trans hj
        cases hp
      · exact (setCall_of_ne hne).symm.trans hj
    exact .inl ⟨fun i j p q hi hj hp hq => hs.alone i j p q (hold hi hp) (hold hj hq) hp hq,
      fun i m n hi => hs.opened i m n (hold hi rfl), fun i m n hi => hs.written i m n (hold hi rfl), hs.exists'⟩
  · obtain ⟨n, hopened, htmp, hfile⟩ := createTmp_opened (i := k) (m := m) hs.exists'
    by_cases hother : ∃ j p, j ≠ k ∧ s.calls j = some p ∧ p.writing = true
    · obtain ⟨j, p, hne, hj, hp⟩ := hother
      exact .inr (.inl ⟨j, k, p, _, hne, (createTmp_calls hne).trans hj, hopened, hp, rfl⟩)
    · left
      have honly {j : Nat} {p : PersistCall M} (hj : (s.createTmp k m).calls j = some p) (hp : p.writing = true) :
          j = k := by
        by_contra hne
        exact hother ⟨j, p, hne, (createTmp_calls hne).symm.trans hj, hp⟩
      refine ⟨?_, ?_, ?_, ?_⟩
      · intro i j p q hi hj hp hq
        rw [honly hi hp, honly hj hq]
      · intro i m' n' hi
        rw [honly hi rfl] at hi
        cases hopened.symm.trans hi
        exact ⟨htmp, hfile⟩
      · intro i m' n' hi
        rw [honly hi rfl] at hi
        cases hopened.symm.trans hi
      · intro n' hn'
        cases htmp.symm.trans hn'
        exact (List.getElem?_eq_some_iff.mp hfile).1
  · left
    obtain ⟨htmp, hfile⟩ := hs.opened k m n hk
    have honly {j : Nat} {p : PersistCall M} (hj : (s.setCall k (some (.written m n))).calls j = some p)
        (hp : p.writing = true) : j = k := by
      by_contra hne
      exact hne (hs.alone j k p _ ((setCall_of_ne hne).symm.trans hj) hk hp rfl)
    refine ⟨?_, ?_, ?_, ?_⟩
    · intro i j p q hi hj hp hq
      rw [honly hi hp, honly hj hq]
    · intro i m' n' hi
      rw [honly hi rfl] at hi
      cases setCall_self.symm.trans hi
    · intro i m' n' hi
      rw [honly hi rfl] at hi
      cases setCall_self.symm.trans hi
      refine ⟨htmp, ?_⟩
      rw [List.getElem?_modify_eq, hfile]
      simp [overwrite]
    · intro n' hn'
      rw [List.length_modify]
      exact hs.exists' n' hn'
  · left
    have hnone {j : Nat} {p : PersistCall M} (hj : (s.setCall k none).calls j = some p) : p.writing = false := by
      by_cases hne : j = k
      · subst hne
        cases setCall_self.symm.trans hj
      · rw [setCall_of_ne hne] at hj
        by_contra hp
        exact hne (hs.alone j k p _ hj hk (Bool.not_eq_false _ ▸ hp) rfl)
    refine ⟨?_, ?_, ?_, nofun⟩
    · intro i j p q hi _ hp
      rw [hnone hi] at hp
      cases hp
    · intro i m' n' hi
      cases hnone hi
    · intro i m' n' hi
      cases hnone hi

theorem converged_next (hs : s.Exclusive c ∨ s.Overlapping) (hconv : s.Converged c) (h : s.next c a = some s') :
    s'.Converged c ↔ s.InOrder a := by
  have hbusy {j : Nat} {o : PersistCall M} (hj : s'.calls j = some o) : s'.Converged c := by
    intro hidle
    rw [hidle j] at hj
    cases hj
  obtain ⟨m, rfl, rfl⟩ | ⟨k, rfl, hk, rfl⟩ | ⟨k, m, rfl, hk, rfl⟩ | ⟨k, m, n, rfl, hk, rfl⟩ |
    ⟨k, m, f, n, rfl, hk, htmp, rfl⟩ := next_cases h
  · exact iff_of_true hconv trivial
  · exact iff_of_true (hbusy setCall_self) trivial
  · have hopened : ∃ n, (s.createTmp k m).calls k = some (.opened m n) := by
      unfold createTmp
      split <;> exact ⟨_, setCall_self⟩
    obtain ⟨n, hopened⟩ := hopened
    exact iff_of_true (hbusy hopened) trivial
  · exact iff_of_true (hbusy setCall_self) trivial
  · by_cases hothers : ∀ j, j ≠ k → s.calls j = none
    · have hexclusive : s.Exclusive c := by
        refine hs.resolve_right ?_
        rintro (⟨i, j, p, q, hne, hi, hj, -⟩ | ⟨hnone, -⟩)
        · by_cases hik : i = k
          · rw [hothers j fun hjk => hne (hik.trans hjk.symm)] at hj
            cases hj
          · rw [hothers i hik] at hi
            cases hi
        · cases htmp.symm.trans hnone
      obtain ⟨hf, hfile⟩ := hexclusive.written k m f hk
      cases htmp.symm.trans hf
      have hidle : ∀ j, (s.setCall k none).calls j = none := by
        intro j
        by_cases hne : j = k
        · rw [hne, setCall_self]
        · rw [setCall_of_ne hne, hothers j hne]
      constructor
      · intro hconv' _ call hcall l hl
        cases hk.symm.trans hcall
        have hcontent := hconv' hidle l hl
        simp only [content, Option.bind_some] at hcontent
        rw [show (s.setCall k none).files = s.files from rfl, hfile, Option.bind_some, c.decode_encode] at hcontent
        exact (Option.some_inj.mp hcontent).symm
      · intro horder _ l hl
        rw [horder hothers _ hk l hl]
        simp only [content, Option.bind_some]
        rw [show (s.setCall k none).files = s.files from rfl, hfile, Option.bind_some, c.decode_encode, PersistCall.map]
    · obtain ⟨j, hj⟩ := not_forall.mp hothers
      obtain ⟨hne, hj⟩ := Classical.not_imp.mp hj
      obtain ⟨o, ho⟩ := Option.ne_none_iff_exists'.mp hj
      exact iff_of_true (hbusy ((setCall_of_ne hne).trans ho)) fun h => absurd h hothers

end Steps

theorem exclusive_start (c : Codec M) (m : M) (old left : Option (List UInt8)) : (start m old left).Exclusive c := by
  refine ⟨nofun, nofun, nofun, ?_⟩
  intro n hn
  obtain ⟨bs, rfl, rfl⟩ := Option.map_eq_some_iff.mp hn
  simp [start]

theorem converged_start (c : Codec M) (m : M) (old left : Option (List UInt8)) : (start m old left).Converged c := by
  intro _ l hl
  cases hl

/-- In every interleaving of calls without I/O errors with changes of the map: the state file is right
whenever no call runs, if and only if the call that finishes last of those running has always serialized the
map as it last was. -/
theorem converged_iff_inOrder (c : Codec M) (m : M) (old left : Option (List UInt8)) {as : List (PersistStep M)}
    {s : PersistState M} :
    Steps (fun s a t => s.next c a = some t ∧ t.Converged c) (start m old left) as s ↔
      Steps (fun s a t => s.next c a = some t ∧ s.InOrder a) (start m old left) as s := by
  have hfiles : ∀ (s : PersistState M) a t, s.next c a = some t → s.Exclusive c ∨ s.Overlapping →
      t.Exclusive c ∨ t.Overlapping := by
    intro s a t h hs
    exact hs.elim (fun hs => hs.next h) fun hs => .inr (hs.next h)
  exact Steps.iff_of_step hfiles (fun _ _ _ h hs hconv => converged_next hs hconv h)
    (.inl (exclusive_start c m old left)) (converged_start c m old left)

def finish (i : Nat) : List (PersistStep M) := [.create i, .write i, .rename i]

def overtaken (before last : M) : List (PersistStep M) :=
  List.flatten [[.change before, .serialize 0, .change last, .serialize 1], finish 1, finish 0]

theorem overwrite_nil (bs : List UInt8) : overwrite bs [] = bs := by simp [overwrite]

theorem overtaken_stale (c : Codec M) (before last : M) : ∃ s,
    Steps (fun s a t => s.next c a = some t) (start last none none) (overtaken before last) s ∧
    (∀ i, s.calls i = none) ∧ s.tenants = last ∧ s.latest = some last ∧ s.content.bind c.decode = some before := by
  obtain ⟨s, hs⟩ :
      ∃ s, Steps.trace (next c) (fun _ _ => True) (start last none none) (overtaken before last) = some s :=
    ⟨_, rfl⟩
  have hidle : ∀ i, s.calls i = none := by
    intro i
    cases hs
    obtain _ | _ | i := i
    all_goals rfl
  have hcontent : s.content = some (overwrite (c.encode before) []) := by
    cases hs
    rfl
  refine ⟨s, (Steps.of_trace hs).mono fun _ _ _ h => h.1, hidle, ?_, ?_, ?_⟩
  · cases hs
    rfl
  · cases hs
    rfl
  · rw [hcontent, overwrite_nil, Option.bind_some, c.decode_encode]

def boolCodec : Codec Bool where
  encode b := if b then "true".toUTF8.toList else "false".toUTF8.toList
  decode bs := if bs = "true".toUTF8.toList then some true else if bs = "false".toUTF8.toList then some false else none
  decode_encode := by decide +kernel

theorem overtaken_not_converged : ∃ s,
    Steps (fun s a t => s.next boolCodec a = some t) (start false none none) (overtaken true false) s ∧
    s.tenants = false ∧ s.content.bind boolCodec.decode = some true ∧ ¬s.Converged boolCodec := by
  obtain ⟨s, hrun, hidle, htenants, hlatest, hcontent⟩ := overtaken_stale boolCodec true false
  refine ⟨s, hrun, htenants, hcontent, fun hconv => ?_⟩
  have hlast := hconv hidle false hlatest
  rw [hcontent] at hlast
  cases hlast

end PersistState

end CloneVmm.Controller
