import CloneVmm.Controller.OneVm

namespace CloneVmm.Controller

open CloneVmm.Lib

inductive LastSave
  | missing
  | underway (task : Nat)
  | failed
  | complete (path : String)
  deriving DecidableEq

def Pc.saveNoted (i : Nat) (r : Reply) (w : View) (last : LastSave) : Pc → LastSave
  | markSaving _ _ _ => .underway i
  | saveVm _ v path =>
    if last = .underway i then
      match w.daemon.call v r with
      | .ok _ => .complete path
      | .error _ => .failed
    else last
  | deleteTenant => if w.record.isSome then .missing else last
  | destroyDeleted _ => .missing
  | _ => last

def Pc.removes : Pc → Bool
  | destroyDeleted _ => true
  | _ => false

structure Archived where
  state : ControllerState
  lastSave : String → LastSave

namespace TenantState

/-- The records that `acquire` would restore. -/
def restorable (t : TenantState) : Bool :=
  match t.status with
  | .saved => true
  | .failed _ => t.savePath.isSome
  | .notFound | .starting | .active | .softReclaimed | .saving => false

def failed (t : TenantState) : Bool :=
  match t.status with
  | .failed _ => true
  | .notFound | .starting | .active | .softReclaimed | .saving | .saved => false

end TenantState

namespace Archived

def observe (w : Archived) : Action → String → LastSave
  | .resume i r =>
    match w.state.tasks i with
    | some task =>
      if task.acts then
        Function.update w.lastSave task.tenant
          (task.pc.saveNoted i r (w.state.view task.tenant) (w.lastSave task.tenant))
      else w.lastSave
    | none => w.lastSave
  | .drop i served =>
    match w.state.tasks i with
    | some task =>
      if served && task.acts && task.pc.removes then Function.update w.lastSave task.tenant .missing else w.lastSave
    | none => w.lastSave
  | .request _ _ | .cycle _ _ | .exit _ | .tick _ | .restart => w.lastSave

def next (cfg : ControllerConfig) (w : Archived) (a : Action) : Option Archived :=
  (w.state.next cfg a).map fun s' => ⟨s', w.observe a⟩

end Archived

section SaveStep

variable {cfg : ControllerConfig} {id : String} {now : Time} {r : Reply} {w : View} {pc : Pc} {t t' : TenantState}
  {last : LastSave} {i : Nat}

end SaveStep

namespace Archived

variable {cfg : ControllerConfig} {w w' : Archived} {a : Action} {id : String} {pc : Pc} {i : Nat} {r : Reply}

theorem next_resume {task : Task} (h : w.next cfg (.resume i r) = some w') (hi : w.state.tasks i = some task)
    (hacts : task.acts = true) :
    w'.state.tenants task.tenant =
        (task.pc.step cfg task.tenant w.state.now r (w.state.view task.tenant)).record ∧
      w'.lastSave task.tenant =
        task.pc.saveNoted i r (w.state.view task.tenant) (w.lastSave task.tenant) := by
  obtain ⟨s', hs', rfl⟩ := Option.map_eq_some_iff.mp h
  obtain ⟨task', hi', hs'⟩ := Option.bind_eq_some_iff.mp hs'
  obtain rfl := Option.some_inj.mp (hi.symm.trans hi')
  obtain ⟨hidle, -⟩ | ⟨-, -, rfl⟩ := ControllerState.resume_cases hs'
  · rw [hidle] at hacts
    cases hacts
  · refine ⟨ControllerState.apply_tenants, ?_⟩
    simp only [observe, hi, hacts, if_true, Function.update_self]

theorem next_cases (h : w.next cfg a = some w') (ha : a ≠ .restart) (hd : ∀ i served, a ≠ .drop i served) (id : String) :
    (w'.state.tenants id = w.state.tenants id ∧ w'.lastSave id = w.lastSave id) ∨
      ∃ i r task, a = .resume i r ∧ w.state.tasks i = some task ∧ task.acts = true ∧ task.tenant = id ∧
        w'.state.tenants id = (task.pc.step cfg id w.state.now r (w.state.view id)).record ∧
        w'.lastSave id = task.pc.saveNoted i r (w.state.view id) (w.lastSave id) := by
  have hnext := h
  obtain ⟨s', hs', rfl⟩ := Option.map_eq_some_iff.mp h
  cases a with
  | request i req =>
    obtain ⟨-, rfl⟩ := ControllerState.spawn_cases hs'
    exact .inl ⟨rfl, rfl⟩
  | cycle i id' =>
    obtain ⟨-, -, -, -, rfl⟩ := ControllerState.cycle_cases hs'
    exact .inl ⟨rfl, rfl⟩
  | resume i r =>
    obtain ⟨task, hi, hs'⟩ := Option.bind_eq_some_iff.mp hs'
    obtain ⟨hidle, flush, file, rfl⟩ | ⟨hacts, -, rfl⟩ := ControllerState.resume_cases hs'
    · left
      simp only [observe, hi, hidle, Bool.false_eq_true, if_false]
      exact ⟨rfl, trivial⟩
    · by_cases hid : task.tenant = id
      · subst hid
        exact .inr ⟨i, r, task, rfl, hi, hacts, rfl, next_resume hnext hi hacts⟩
      · left
        simp only [observe, hi, hacts, if_true]
        exact ⟨Function.update_of_ne (Ne.symm hid) _ _, Function.update_of_ne (Ne.symm hid) _ _⟩
  | exit v =>
    cases hs'
    exact .inl ⟨rfl, rfl⟩
  | tick nanos =>
    cases hs'
    exact .inl ⟨rfl, rfl⟩
  | drop i served => exact absurd rfl (hd i served)
  | restart => exact absurd rfl ha

def empty : Archived := ⟨.initial, fun _ => .missing⟩

end Archived

end CloneVmm.Controller
