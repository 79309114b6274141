import CloneVmm.Controller.Tasks

namespace CloneVmm.Controller

open CloneVmm.Lib

inductive Field
  | lastRequestAt
  | status
  | vmId
  | guestIp
  | config
  | healthFailCount
  deriving DecidableEq

inductive FieldValue
  | time (at' : Option Time)
  | status (status : VmStatus)
  | vm (vmId : Option VmId)
  | text (text : Option String)
  | config (config : TenantConfig)
  | count (n : UInt32)
  deriving DecidableEq

def Field.read (t : TenantState) : Field → FieldValue
  | lastRequestAt => .time t.lastRequestAt
  | status => .status t.status
  | vmId => .vm t.vmId
  | guestIp => .text t.guestIp
  | config => .config t.config
  | healthFailCount => .count t.healthFailCount

def ControllerState.field (s : ControllerState) (id : String) (f : Field) : Option FieldValue :=
  (s.tenants id).map f.read

namespace Pc

def writes : Pc → List Field
  | writeBack _ => [.lastRequestAt, .status, .vmId, .guestIp, .config, .healthFailCount]
  | saveFailed _ => [.status, .vmId, .guestIp]
  | noteProbe _ _ => [.healthFailCount]
  | _ => []

def reclaims : Pc → Bool
  | markSaving _ _ _ | saveVm _ _ _ | destroySaved _ _ _ | destroyUnsaved _ _ | dropCaches _ _ | balloonDown _ _ => true
  | _ => false

def notesProbe : Pc → Bool
  | noteProbe _ _ => true
  | _ => false

end Pc

structure Watched where
  state : ControllerState
  changed : Field → Option (Option FieldValue)

namespace Watched

def watch (s : ControllerState) : Watched := ⟨s, fun _ => none⟩

def isStepOf (n : Nat) : Action → Bool
  | .resume i _ => i == n
  | .request _ _ | .cycle _ _ | .drop _ _ | .exit _ | .tick _ | .restart => false

def reclaiming (s : ControllerState) (n : Nat) : Bool :=
  (s.tasks n).any fun task => task.acts && task.pc.reclaims

def noted (n : Nat) (id : String) (w : Watched) (a : Action) (s' : ControllerState) (f : Field) :
    Option (Option FieldValue) :=
  if isStepOf n a then if reclaiming w.state n then none else w.changed f
  else if s'.field id f = w.state.field id f then w.changed f else some (s'.field id f)

def next (cfg : ControllerConfig) (n : Nat) (id : String) (w : Watched) (a : Action) : Option Watched :=
  match a with
  | .restart => none
  | .request _ _ | .cycle _ _ | .resume _ _ | .drop _ _ | .exit _ | .tick _ =>
    (w.state.next cfg a).map fun s' => ⟨s', w.noted n id a s'⟩

def InEffect (w : Watched) (id : String) : Prop := ∀ f x, w.changed f = some x → w.state.field id f = x

def pending (s : ControllerState) (n : Nat) : List Field := ((s.tasks n).map fun task => task.pc.writes).getD []

def decision (cfg : ControllerConfig) (s : ControllerState) (n : Nat) (a : Action) : Option Pc :=
  ((s.next cfg a).bind fun s' => s'.tasks n).map Task.pc

/-- While the watched task waits for the lock with its result, no other step changes a field of a registered
tenant that it is about to write; and when its probe ends in a count to be stored, nobody has changed the
stored count since the copy. -/
def Timely (cfg : ControllerConfig) (n : Nat) (id : String) (w : Watched) (a : Action) : Prop :=
  if isStepOf n a then
    (decision cfg w.state n a).any Pc.notesProbe = true →
      w.state.tenants id = none ∨ w.changed .healthFailCount = none
  else
    ∀ s' ∈ w.state.next cfg a, s'.tenants id = none ∨
      ∀ f ∈ pending w.state n, s'.field id f = w.state.field id f

end Watched

section ReconcileStep

variable {cfg : ControllerConfig} {id : String} {now : Time} {r : Reply} {w : View} {pc : Pc} {t : TenantState}

theorem reconcileDecision_reconciles : (reconcileDecision cfg id now t).reconciles = true := by
  obtain ⟨v, path, -, h⟩ | ⟨v, h⟩ | h | h := reconcileDecision_cases cfg id now t
  all_goals
    rw [h]
    rfl

theorem reconcileDecision_writes (hprobe : (reconcileDecision cfg id now t).notesProbe = false) :
    (reconcileDecision cfg id now t).writes = [] := by
  obtain ⟨v, path, -, h⟩ | ⟨v, h⟩ | h | h := reconcileDecision_cases cfg id now t
  · rw [h]
    rfl
  · rw [h]
    rfl
  · rw [h] at hprobe
    cases hprobe
  · rw [h]
    rfl

theorem Pc.writes_of_notesProbe (h : pc.notesProbe = true) : pc.writes = [.healthFailCount] := by
  cases pc <;> simp_all [notesProbe, writes]

theorem Pc.step_reconciles (hpc : pc.reconciles = true) : (pc.step cfg id now r w).pc.reconciles = true := by
  cases pc with
  | reconcileTenant t => exact reconcileDecision_reconciles
  | saveVm t v path =>
    simp only [step, View.goto]
    cases w.daemon.call v r <;> rfl
  | done response => exact hpc
  | markSaving _ _ _ | destroySaved _ _ _ | destroyUnsaved _ _ | saveFailed _ | dropCaches _ _ | balloonDown _ _
  | writeBack _ | noteProbe _ _ => rfl
  | _ => cases hpc

theorem Pc.step_writes (hpc : pc.reconciles = true) (hreclaims : pc.reclaims = false)
    (hprobe : (pc.step cfg id now r w).pc.notesProbe = false) : (pc.step cfg id now r w).pc.writes = [] := by
  cases pc with
  | reconcileTenant t => exact reconcileDecision_writes hprobe
  | saveFailed _ | writeBack _ | noteProbe _ _ | done _ => rfl
  | markSaving _ _ _ | saveVm _ _ _ | destroySaved _ _ _ | destroyUnsaved _ _ | dropCaches _ _ | balloonDown _ _ =>
    cases hreclaims
  | _ => cases hpc

theorem Pc.step_record_none (hpc : pc.reconciles = true) (hw : w.record = none) :
    (pc.step cfg id now r w).record = none := by
  have hmap (f : TenantState → TenantState) : w.record.map f = none := by rw [hw, Option.map_none]
  cases pc with
  | markSaving _ _ _ | saveFailed _ | writeBack _ | noteProbe _ _ => exact hmap _
  | reconcileTenant _ | saveVm _ _ _ | destroySaved _ _ _ | destroyUnsaved _ _ | dropCaches _ _ | balloonDown _ _
  | done _ => exact hw
  | _ => cases hpc

theorem Pc.step_read (hpc : pc.reconciles = true) (hreclaims : pc.reclaims = false) {f : Field}
    (hf : f ∉ pc.writes) : (pc.step cfg id now r w).record.map f.read = w.record.map f.read := by
  have hmap {g : TenantState → TenantState} (hg : ∀ t, f.read (g t) = f.read t) :
      (w.record.map g).map f.read = w.record.map f.read := by
    rw [Option.map_map]
    congr 1
    funext t
    exact hg t
  cases pc with
  | saveFailed e =>
    refine hmap fun t => ?_
    cases f <;> simp_all [writes, unsavedRecord, Field.read]
  | writeBack new => cases f <;> simp [writes] at hf
  | noteProbe n ok =>
    refine hmap fun t => ?_
    cases f <;> simp_all [writes, noteRecord, Field.read]
  | reconcileTenant _ | done _ => rfl
  | markSaving _ _ _ | saveVm _ _ _ | destroySaved _ _ _ | destroyUnsaved _ _ | dropCaches _ _ | balloonDown _ _ =>
    cases hreclaims
  | _ => cases hpc

end ReconcileStep

namespace Watched

variable {cfg : ControllerConfig} {w w' : Watched} {n : Nat} {id : String} {a : Action} {s s' : ControllerState}

structure Kept (w : Watched) (n : Nat) (id : String) : Prop where
  task : ∃ pc, w.state.At n id pc ∧ pc.reconciles = true
  effect : w.InEffect id
  free : w.state.tenants id = none ∨ ∀ f ∈ pending w.state n, w.changed f = none

theorem field_none (h : s.tenants id = none) (f : Field) : s.field id f = none := by
  rw [ControllerState.field, h, Option.map_none]

theorem pending_at {pc : Pc} (h : s.At n id pc) : pending s n = pc.writes := by
  obtain ⟨flush, h⟩ := h
  rw [pending, h]
  rfl

theorem Kept.other (hw : w.Kept n id) (h : w.state.next cfg a = some s') (ha : isStepOf n a = false)
    (hr : a ≠ .restart) (htimely : w.Timely cfg n id a) : (Watched.mk s' (w.noted n id a s')).Kept n id := by
  obtain ⟨pc, ⟨flush, hpc⟩, hreconciles⟩ := hw.task
  have hne : ∀ r, a ≠ .resume n r := by
    rintro r rfl
    simp [isStepOf] at ha
  have hstay : s'.At n id pc := ⟨flush, ControllerState.tasks_next h hne hr hpc hreconciles⟩
  have hpending : pending s' n = pending w.state n := by
    rw [pending_at hstay, pending_at ⟨flush, hpc⟩]
  have hnoted (f : Field) : w.noted n id a s' f =
      if s'.field id f = w.state.field id f then w.changed f else some (s'.field id f) := by
    simp [noted, ha]
  refine ⟨⟨pc, hstay, hreconciles⟩, ?_, ?_⟩
  · intro f x hx
    have hx : w.noted n id a s' f = some x := hx
    rw [hnoted] at hx
    split at hx
    · rename_i hsame
      exact hsame.trans (hw.effect f x hx)
    · exact Option.some_inj.mp hx
  · rw [Timely, ha, if_neg Bool.false_ne_true] at htimely
    rcases htimely s' h with hgone | hsame
    · exact .inl hgone
    · rcases hw.free with hnone | hfree
      · by_cases hempty : pending w.state n = []
        · refine .inr fun f hf => ?_
          rw [hpending, hempty] at hf
          cases hf
        · obtain ⟨f, hf⟩ := List.exists_mem_of_ne_nil _ hempty
          have hfield := (hsame f hf).trans (field_none hnone f)
          exact .inl (Option.map_eq_none_iff.mp hfield)
      · refine .inr fun f hf => ?_
        rw [hpending] at hf
        exact (hnoted f).trans ((if_pos (hsame f hf)).trans (hfree f hf))

theorem Kept.own {pc : Pc} {r : Reply} (hw : w.Kept n id) (hat : w.state.At n id pc) (hpc : pc.reconciles = true)
    (hreclaims : pc.reclaims = false)
    (hs' : s' = w.state.apply n id (pc.step cfg id w.state.now r (w.state.view id)))
    (hprobe : (pc.step cfg id w.state.now r (w.state.view id)).pc.notesProbe = true →
      w.state.tenants id = none ∨ w.changed .healthFailCount = none) :
    (Watched.mk s' w.changed).Kept n id := by
  have hrecord : s'.tenants id = (pc.step cfg id w.state.now r (w.state.view id)).record := by
    rw [hs', ControllerState.apply_tenants]
  have hgone (hnone : w.state.tenants id = none) : s'.tenants id = none :=
    hrecord.trans (Pc.step_record_none hpc hnone)
  have hnext : s'.At n id (pc.step cfg id w.state.now r (w.state.view id)).pc := by
    rw [hs']
    exact ControllerState.at_apply.mpr (.inl ⟨rfl, rfl, rfl⟩)
  refine ⟨⟨_, hnext, Pc.step_reconciles hpc⟩, ?_, ?_⟩
  · intro f x hx
    have heffect := hw.effect f x hx
    by_cases hf : f ∈ pc.writes
    · rcases hw.free with hnone | hfree
      · rw [field_none hnone] at heffect
        exact (field_none (hgone hnone) f).trans heffect
      · rw [pending_at hat] at hfree
        rw [hfree f hf] at hx
        cases hx
    · have hread : s'.field id f = w.state.field id f := by
        rw [ControllerState.field, hrecord]
        exact Pc.step_read hpc hreclaims hf
      exact hread.trans heffect
  · change s'.tenants id = none ∨ ∀ f ∈ pending s' n, w.changed f = none
    rw [pending_at hnext]
    by_cases hnotes : (pc.step cfg id w.state.now r (w.state.view id)).pc.notesProbe = true
    · rw [Pc.writes_of_notesProbe hnotes]
      rcases hprobe hnotes with hnone | hfree
      · exact .inl (hgone hnone)
      · refine .inr fun f hf => ?_
        rw [List.mem_singleton.mp hf]
        exact hfree
    · rw [Pc.step_writes hpc hreclaims (Bool.not_eq_true _ ▸ hnotes)]
      exact .inr fun f hf => nomatch hf

theorem noted_own {r : Reply} (w : Watched) (s' : ControllerState) :
    w.noted n id (.resume n r) s' = fun f => if reclaiming w.state n then none else w.changed f := by
  funext f
  simp [noted, isStepOf]

theorem reclaiming_at {pc : Pc} {flush : Flush} (h : s.tasks n = some ⟨id, pc, flush⟩) :
    reclaiming s n = ((Task.mk id pc flush).acts && pc.reclaims) := by
  rw [reclaiming, h, Option.any_some]

theorem Kept.resume {r : Reply} (hw : w.Kept n id) (h : w.state.next cfg (.resume n r) = some s')
    (htimely : w.Timely cfg n id (.resume n r)) : (Watched.mk s' (w.noted n id (.resume n r) s')).Kept n id := by
  obtain ⟨pc, ⟨flush, hpc⟩, hreconciles⟩ := hw.task
  obtain ⟨task, htask, hresume⟩ := Option.bind_eq_some_iff.mp h
  obtain rfl := Option.some_inj.mp (hpc.symm.trans htask)
  rw [noted_own, reclaiming_at hpc]
  obtain ⟨hacts, flush', file, rfl⟩ | ⟨hacts, -, rfl⟩ := ControllerState.resume_cases hresume
  · have hstay : (w.state.setTask n ⟨id, pc, flush'⟩).At n id pc := (ControllerState.at_flush hpc).mpr ⟨flush, hpc⟩
    have hpending : pending (w.state.setTask n ⟨id, pc, flush'⟩) n = pc.writes := pending_at hstay
    have hfree := hw.free
    rw [pending_at ⟨flush, hpc⟩] at hfree
    simp only [hacts, Bool.false_and, Bool.false_eq_true, if_false]
    exact ⟨⟨pc, hstay, hreconciles⟩, hw.effect, hfree.imp_right fun hfree f hf => hfree f (hpending ▸ hf)⟩
  · cases hreclaims : pc.reclaims with
    | true =>
      simp only [hacts, Bool.and_self, if_true]
      refine ⟨⟨_, ControllerState.at_apply.mpr (.inl ⟨rfl, rfl, rfl⟩), Pc.step_reconciles hreconciles⟩, ?_, ?_⟩
      · intro f x hx
        cases hx
      · exact .inr fun f _ => rfl
    | false =>
      simp only [Bool.and_false, Bool.false_eq_true, if_false]
      refine hw.own ⟨flush, hpc⟩ hreconciles hreclaims rfl fun hnotes => ?_
      have hself : isStepOf n (.resume n r) = true := beq_self_eq_true n
      rw [Timely, if_pos hself, decision, h, Option.bind_some, ControllerState.apply_tasks] at htimely
      exact htimely hnotes

theorem Kept.step (hw : w.Kept n id) (h : w.next cfg n id a = some w') (htimely : w.Timely cfg n id a) :
    w'.Kept n id := by
  have hr : a ≠ .restart := by
    rintro rfl
    cases h
  obtain ⟨s', hs', rfl⟩ : ∃ s', w.state.next cfg a = some s' ∧ ⟨s', w.noted n id a s'⟩ = w' := by
    cases a with
    | restart => cases h
    | request _ _ | cycle _ _ | resume _ _ | drop _ _ | exit _ | tick _ => exact Option.map_eq_some_iff.mp h
  by_cases ha : isStepOf n a = true
  · cases a with
    | resume i r =>
      obtain rfl := beq_iff_eq.mp ha
      exact hw.resume hs' htimely
    | request _ _ | cycle _ _ | drop _ _ | exit _ | tick _ | restart => cases ha
  · exact hw.other hs' (Bool.not_eq_true _ ▸ ha) hr htimely

/-- In every run from the moment a reconcile task takes its copy, whose steps are timely: what the others
change is still in effect, in every state reached, unless the task has performed a step of a reclaim since. -/
theorem inEffect_of_timely (cfg : ControllerConfig) {n : Nat} {id : String} {s₀ s : ControllerState}
    (hcycle : s₀.next cfg (.cycle n id) = some s) {as : List Action} {w : Watched}
    (hrun : Steps (fun w a w' => w.next cfg n id a = some w' ∧ w.Timely cfg n id a) (watch s) as w) :
    w.InEffect id := by
  obtain ⟨t, -, -, -, rfl⟩ := ControllerState.cycle_cases hcycle
  have hat : (s₀.setTask n ⟨id, .reconcileTenant t, .clean⟩).At n id (.reconcileTenant t) :=
    ControllerState.at_setTask.mpr (.inl ⟨rfl, rfl, rfl⟩)
  have hstart : (watch (s₀.setTask n ⟨id, .reconcileTenant t, .clean⟩)).Kept n id := by
    refine ⟨⟨_, hat, rfl⟩, ?_, .inr fun f _ => rfl⟩
    intro f x hx
    cases hx
  have hkept : w.Kept n id := hrun.invariant (P := fun w => w.Kept n id) (fun _ _ _ h hw => hw.step h.1 h.2) hstart
  exact hkept.effect

instance (cfg : ControllerConfig) (n : Nat) (id : String) (w : Watched) (a : Action) :
    Decidable (w.Timely cfg n id a) :=
  inferInstanceAs (Decidable (if isStepOf n a then _ else _))

def oneFailure : List Action :=
  List.flatten [[.request 0 (.create (ControllerState.demoTenant (some 80)))], ControllerState.resumes 0 3 "",
    [.request 1 (.acquire "demo")], ControllerState.resumes 1 14 "172.30.0.2",
    [.cycle 2 "demo", .resume 2 (.refused "")], ControllerState.resumes 2 3 ""]

def copied : Option ControllerState :=
  (Steps.trace (ControllerState.next .defaults) (fun _ _ => True) .initial oneFailure).bind fun s =>
    s.next .defaults (.cycle 3 "demo")

def releasedInTime : List Action :=
  List.flatten [[.tick 5000000000, .request 4 (.release "demo")], ControllerState.resumes 4 3 "",
    ControllerState.resumes 3 1 ""]

theorem releasedInTime_inEffect : ∃ s w, copied = some s ∧
    Steps.trace (fun w a => w.next .defaults 3 "demo" a) (Timely .defaults 3 "demo") (watch s) releasedInTime =
      some w ∧ w.changed .lastRequestAt = some (some (.time (some 5000000000))) ∧ w.InEffect "demo" := by
  obtain ⟨s, hs⟩ : ∃ s, copied = some s := Option.isSome_iff_exists.mp (by decide)
  have hend : (copied.bind fun s =>
      (Steps.trace (fun w a => w.next .defaults 3 "demo" a) (Timely .defaults 3 "demo") (watch s) releasedInTime).map
        fun w => w.changed .lastRequestAt) = some (some (some (.time (some 5000000000)))) := by decide
  rw [hs, Option.bind_some, Option.map_eq_some_iff] at hend
  obtain ⟨w, hw, hchanged⟩ := hend
  obtain ⟨s₀, -, hcycle⟩ := Option.bind_eq_some_iff.mp hs
  exact ⟨s, w, hs, hw, hchanged, inEffect_of_timely .defaults hcycle (Steps.of_trace hw)⟩

def staleCount : List Action :=
  List.flatten [[.request 4 (.acquire "demo")], ControllerState.resumes 4 4 "", [.resume 3 (.refused "")],
    ControllerState.resumes 3 3 ""]

theorem staleCount_lost : ∃ (s₀ s : ControllerState) (w : Watched),
    Steps (fun s a t => ControllerState.next .defaults s a = some t) .initial oneFailure s₀ ∧
    s₀.next .defaults (.cycle 3 "demo") = some s ∧
    Steps (fun w a w' => w.next .defaults 3 "demo" a = some w') (watch s) staleCount w ∧
    (∀ i ∈ [3, 4], (w.state.tasks i).any (fun task => task.acts && task.pc.finished) = true) ∧
    w.changed .healthFailCount = some (some (.count 0)) ∧
    w.state.field "demo" .healthFailCount = some (.count 2) ∧ ¬w.InEffect "demo" := by
  obtain ⟨s₀, hs₀⟩ :
      ∃ s, Steps.trace (ControllerState.next .defaults) (fun _ _ => True) .initial oneFailure = some s :=
    Option.isSome_iff_exists.mp (by decide)
  have hend : (copied.bind fun s =>
      (Steps.trace (fun w a => w.next .defaults 3 "demo" a) (fun _ _ => True) (watch s) staleCount).map
        fun w => ([3, 4].all fun i => (w.state.tasks i).any fun task => task.acts && task.pc.finished,
          w.changed .healthFailCount, w.state.field "demo" .healthFailCount)) =
      some (true, some (some (.count 0)), some (.count 2)) := by decide
  obtain ⟨s, hs, hend⟩ := Option.bind_eq_some_iff.mp hend
  obtain ⟨w, hw, hend⟩ := Option.map_eq_some_iff.mp hend
  rw [Prod.mk.injEq, Prod.mk.injEq, List.all_eq_true] at hend
  obtain ⟨hfinished, hchanged, hfield⟩ := hend
  rw [copied, hs₀, Option.bind_some] at hs
  refine ⟨s₀, s, w, (Steps.of_trace hs₀).mono fun _ _ _ h => h.1, hs, (Steps.of_trace hw).mono fun _ _ _ h => h.1,
    hfinished, hchanged, hfield, fun heffect => ?_⟩
  rw [heffect _ _ hchanged] at hfield
  cases hfield

end Watched

end CloneVmm.Controller
