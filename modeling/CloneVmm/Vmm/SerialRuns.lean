import CloneVmm.Vmm.Serial

namespace CloneVmm.Vmm.Serial

open CloneVmm.Lib

variable {F : Type}

structure Session where
  serial : Serial
  saved : List (List UInt8)

inductive Action
  | read (portOffset : Nat)
  | write (portOffset : Nat) (value : UInt8)
  | enqueueInput (byte : UInt8)
  | snapshot
  | restore (i : Nat)
  | restoreNew (i : Nat)
  deriving DecidableEq

namespace Session

def next (serde : SerdeValue F) (s : Session) : Action → Option Session
  | .read portOffset => some { s with serial := (s.serial.read portOffset).2 }
  | .write portOffset value => some { s with serial := (s.serial.write portOffset value).2 }
  | .enqueueInput byte => some { s with serial := s.serial.enqueueInput byte }
  | .snapshot => some { s with saved := s.saved ++ [s.serial.snapshotState serde] }
  | .restore i => s.saved[i]?.map fun data => { s with serial := s.serial.restoreState serde data }
  | .restoreNew i => s.saved[i]?.map fun data => { s with serial := Serial.new.restoreState serde data }

def start : Session := ⟨.new, []⟩

def Runs (serde : SerdeValue F) (as : List Action) (s : Session) : Prop :=
  Steps (fun s a t => next serde s a = some t) start as s

end Session

theorem forall_byte {P : UInt8 → Prop} (h : ∀ n < 256, P (.ofNat n)) (x : UInt8) : P x := by
  rw [← @UInt8.ofNat_toNat x]
  exact h _ x.toNat_lt

def pendingInterrupt (s : Serial) : UInt8 :=
  if s.ier &&& 0x01 ≠ 0 ∧ s.inputBuffer ≠ [] then 0x04 else if s.ier &&& 0x02 ≠ 0 then 0x02 else 0x01

structure Consistent (s : Serial) : Prop where
  iir : s.iir &&& 0x0F = s.pendingInterrupt
  dlab : s.dlab = (s.lcr &&& 0x80 != 0)
  ready : s.lsr &&& 0x01 ≠ 0 ↔ s.inputBuffer ≠ []
  ier : s.ier &&& 0xF0 = 0

variable {s : Serial}

theorem updateIir_eq (s : Serial) : s.updateIir = { s with iir := s.iir &&& 0xC0 ||| s.pendingInterrupt } := by
  unfold updateIir pendingInterrupt
  dsimp only
  split
  · rfl
  · split
    · rfl
    · rfl

theorem low_bits : ∀ x : UInt8, (∀ n ∈ [0x04, 0x02, 0x01], (x &&& 0xC0 ||| n) &&& 0x0F = n) ∧
    (x ||| 0xC0) &&& 0x0F = x &&& 0x0F ∧ (x &&& ~~~0xC0) &&& 0x0F = x &&& 0x0F ∧ (x &&& 0x0F) &&& 0xF0 = 0 :=
  forall_byte (by decide +kernel)

theorem nibble_update (x : UInt8) : ∀ n ∈ [0x04, 0x02, 0x01], (x &&& 0xC0 ||| n) &&& 0x0F = n := (low_bits x).1

theorem pendingInterrupt_mem (s : Serial) : s.pendingInterrupt ∈ [0x04, 0x02, 0x01] := by
  unfold pendingInterrupt
  split
  · decide
  · split
    · decide
    · decide

theorem updateIir_consistent (hdlab : s.dlab = (s.lcr &&& 0x80 != 0))
    (hready : s.lsr &&& 0x01 ≠ 0 ↔ s.inputBuffer ≠ []) (hier : s.ier &&& 0xF0 = 0) : Consistent s.updateIir := by
  rw [updateIir_eq]
  exact ⟨nibble_update s.iir _ s.pendingInterrupt_mem, hdlab, hready, hier⟩

theorem ready_bit : ∀ x : UInt8, ((x ||| 0x01) &&& 0x01 ≠ 0 ∧ (x &&& ~~~0x01) &&& 0x01 = 0) ∧
    (x ||| 0x01 ||| 0x60) &&& 0x01 ≠ 0 ∧ (x &&& ~~~0x01 ||| 0x60) &&& 0x01 = 0 :=
  forall_byte (by decide +kernel)

theorem set_ready (x : UInt8) : (x ||| 0x01) &&& 0x01 ≠ 0 := (ready_bit x).1.1

theorem clear_ready (x : UInt8) : (x &&& ~~~0x01) &&& 0x01 = 0 := (ready_bit x).1.2

theorem Consistent.updateIir (h : Consistent s) : Consistent s.updateIir := updateIir_consistent h.dlab h.ready h.ier

theorem Consistent.readData (h : Consistent s) : Consistent s.readData := by
  refine updateIir_consistent h.dlab ?_ h.ier
  dsimp only
  by_cases hrest : s.inputBuffer.tail = []
  · rw [if_pos hrest]
    exact iff_of_false (not_not.mpr (clear_ready _)) (not_not.mpr hrest)
  · rw [if_neg hrest, h.ready]
    refine iff_of_true ?_ hrest
    intro hempty
    rw [hempty] at hrest
    exact hrest rfl

theorem Consistent.read (h : Consistent s) (portOffset : Nat) : Consistent (s.read portOffset).2 := by
  unfold Serial.read
  split
  · split
    · exact h
    · exact h.readData
  · exact h
  · dsimp only
    split
    · exact h.updateIir
    · exact h
  all_goals exact h

theorem Consistent.writeData (h : Consistent s) (value : UInt8) : Consistent (s.writeData value).2 := by
  unfold Serial.writeData
  dsimp only
  split
  · exact updateIir_consistent h.dlab h.ready h.ier
  · exact updateIir_consistent h.dlab h.ready h.ier

theorem Consistent.write (h : Consistent s) (portOffset : Nat) (value : UInt8) :
    Consistent (s.write portOffset value).2 := by
  obtain ⟨-, -, -, hier⟩ := low_bits value
  obtain ⟨-, hset, hclear, -⟩ := low_bits s.iir
  unfold Serial.write
  split
  · split
    · exact ⟨h.iir, h.dlab, h.ready, h.ier⟩
    · exact h.writeData value
  · dsimp only
    split
    · exact ⟨h.iir, h.dlab, h.ready, h.ier⟩
    · exact updateIir_consistent h.dlab h.ready hier
  · refine ⟨?_, h.dlab, h.ready, h.ier⟩
    dsimp only
    split
    · exact hset.trans h.iir
    · exact hclear.trans h.iir
  · exact ⟨h.iir, rfl, h.ready, h.ier⟩
  · exact ⟨h.iir, h.dlab, h.ready, h.ier⟩
  · exact ⟨h.iir, h.dlab, h.ready, h.ier⟩
  · exact h

theorem Consistent.enqueueInput (h : Consistent s) (byte : UInt8) : Consistent (s.enqueueInput byte) := by
  have hready : (s.lsr ||| 0x01) &&& 0x01 ≠ 0 ↔ s.inputBuffer ++ [byte] ≠ [] := by
    refine iff_of_true (set_ready _) ?_
    simp
  unfold Serial.enqueueInput
  dsimp only
  split
  · exact updateIir_consistent h.dlab hready h.ier
  · rename_i hoff
    refine ⟨?_, h.dlab, hready, h.ier⟩
    have hiir := h.iir
    unfold pendingInterrupt at hiir ⊢
    rw [if_neg fun hon => hoff hon.1] at hiir
    rw [if_neg fun hon => hoff hon.1]
    exact hiir

theorem consistent_new : Consistent new := ⟨rfl, rfl, by decide, rfl⟩

structure Session.Kept (serde : SerdeValue F) (s : Session) : Prop where
  serial : Consistent s.serial
  saved : ∀ data ∈ s.saved, ∃ t, Consistent t ∧ data = t.snapshotState serde

section Runs

variable {serde : SerdeValue F} {session session' : Session} {as : List Action}

theorem Session.Kept.restored (hserde : Reads serde) (h : session.Kept serde) {data : List UInt8}
    (hdata : data ∈ session.saved) (s : Serial) : Consistent (s.restoreState serde data) := by
  obtain ⟨t, ht, rfl⟩ := h.saved data hdata
  rw [restoreState_snapshotState hserde]
  exact ⟨ht.iir, ht.dlab, ht.ready, ht.ier⟩

theorem Session.Kept.next (hserde : Reads serde) (h : session.Kept serde) {a : Action}
    (hnext : session.next serde a = some session') : session'.Kept serde := by
  cases a with
  | read portOffset =>
    cases hnext
    exact ⟨h.serial.read portOffset, h.saved⟩
  | write portOffset value =>
    cases hnext
    exact ⟨h.serial.write portOffset value, h.saved⟩
  | enqueueInput byte =>
    cases hnext
    exact ⟨h.serial.enqueueInput byte, h.saved⟩
  | snapshot =>
    cases hnext
    refine ⟨h.serial, fun data hdata => ?_⟩
    rcases List.mem_append.mp hdata with hdata | hdata
    · exact h.saved data hdata
    · exact ⟨_, h.serial, List.mem_singleton.mp hdata⟩
  | restore i =>
    obtain ⟨data, hdata, rfl⟩ := Option.map_eq_some_iff.mp hnext
    exact ⟨h.restored hserde (List.mem_of_getElem? hdata) _, h.saved⟩
  | restoreNew i =>
    obtain ⟨data, hdata, rfl⟩ := Option.map_eq_some_iff.mp hnext
    exact ⟨h.restored hserde (List.mem_of_getElem? hdata) _, h.saved⟩

theorem registers_consistent (hserde : Reads serde) (hrun : Session.Runs serde as session) :
    Consistent session.serial := by
  have hstart : Session.start.Kept serde := ⟨consistent_new, List.forall_mem_nil _⟩
  have hkept : session.Kept serde := hrun.invariant (fun _ _ _ hnext h => h.next hserde hnext) hstart
  exact hkept.serial

end Runs

def noFloats : JsonText.FloatText Empty := ⟨Empty.elim, fun _ => none⟩

theorem registers_consistent_restored :
    ∃ s, Session.Runs (textValue noFloats) [.write 1 0x03, .enqueueInput 0x41, .snapshot, .restoreNew 0] s ∧
      s.serial.iir = 0xC4 ∧ Consistent s.serial := by
  have hreads := textValue_reads noFloats
  have hrun : Session.Runs (textValue noFloats) [.write 1 0x03, .enqueueInput 0x41, .snapshot, .restoreNew 0]
      ⟨_, _⟩ := .cons rfl (.cons rfl (.cons rfl (.cons rfl (.nil _))))
  refine ⟨_, hrun, ?_, registers_consistent hreads hrun⟩
  rw [restoreState_snapshotState hreads]
  rfl

def Session.Between (s : Session) : Action → Prop
  | .read _ | .enqueueInput _ => True
  | .write portOffset _ => s.serial.dlab = true ∨ portOffset ≠ 0 ∧ portOffset ≠ 1
  | .snapshot | .restore _ | .restoreNew _ => False

def Session.Acknowledged (serde : SerdeValue F) (s : Session) : Prop :=
  ∀ as t, Steps (fun s a t => Session.next serde s a = some t ∧ s.Between a) s as t → t.serial.iir &&& 0x0F ≠ 0x02

/-- Reading IIR computes it again from the same registers. -/
theorem thrEmpty_not_acknowledged {serde : SerdeValue F} (hserde : Reads serde) {as : List Action} {s t : Session}
    (hrun : Session.Runs serde as s) (hpending : s.serial.iir &&& 0x0F = 0x02)
    (hread : s.next serde (.read 2) = some t) : ¬ t.Acknowledged serde := by
  have hconsistent := registers_consistent hserde hrun
  cases hread
  have hstill : (s.serial.read 2).2.iir &&& 0x0F = 0x02 := by
    have hread : (s.serial.read 2).2 = s.serial.updateIir := if_pos hpending
    rw [hread, hconsistent.updateIir.iir, updateIir_eq]
    exact hconsistent.iir.symm.trans hpending
  exact fun h => h [] _ (.nil _) hstill

theorem thrEmpty_pending_run : Session.Runs (textValue noFloats) [.write 1 0x02] ⟨(new.write 1 0x02).2, []⟩ :=
  .cons rfl (.nil _)

theorem thrEmpty_not_acknowledged_at_once : ∃ s t, Session.Runs (textValue noFloats) [.write 1 0x02] s ∧
    s.next (textValue noFloats) (.read 2) = some t ∧ ¬ t.Acknowledged (textValue noFloats) :=
  ⟨_, _, thrEmpty_pending_run, rfl,
    thrEmpty_not_acknowledged (textValue_reads noFloats) thrEmpty_pending_run (by decide) rfl⟩

theorem thrEmpty_acknowledged_fails : ∃ s t, Session.Runs (textValue noFloats) [.write 1 0x02] s ∧
    s.serial.iir &&& 0x0F = 0x02 ∧ s.next (textValue noFloats) (.read 2) = some t ∧ (t.serial.read 2).1 = 0xC2 ∧
      ¬ t.Acknowledged (textValue noFloats) := by
  refine ⟨_, _, thrEmpty_pending_run, by decide, rfl, by decide, fun h => ?_⟩
  exact h [] _ (.nil _) (by decide)

inductive PortAction
  | read (portOffset : Nat)
  | write (portOffset : Nat) (value : UInt8)
  | enqueueInput (byte : UInt8)
  | renew
  deriving DecidableEq

def renew (serde : SerdeValue F) (s : Serial) : Serial := new.restoreState serde (s.snapshotState serde)

def perform (serde : SerdeValue F) (s : Serial) : PortAction → Serial
  | .read portOffset => (s.read portOffset).2
  | .write portOffset value => (s.write portOffset value).2
  | .enqueueInput byte => s.enqueueInput byte
  | .renew => s.renew serde

def run (serde : SerdeValue F) (s : Serial) (as : List PortAction) : Serial := as.foldl (perform serde) s

def readings (serde : SerdeValue F) : Serial → List PortAction → List UInt8
  | _, [] => []
  | s, .read portOffset :: as => (s.read portOffset).1 :: readings serde (s.perform serde (.read portOffset)) as
  | s, a :: as => readings serde (s.perform serde a) as

def received (serde : SerdeValue F) : Serial → List PortAction → List UInt8
  | _, [] => []
  | s, a :: as =>
    if a = .read 0 ∧ s.dlab = false ∧ (s.read 5).1 &&& 0x01 ≠ 0 then
      (s.read 0).1 :: received serde (s.perform serde a) as
    else received serde (s.perform serde a) as

def enqueued : List PortAction → List UInt8
  | [] => []
  | .enqueueInput byte :: as => byte :: enqueued as
  | _ :: as => enqueued as

section Input

variable {serde : SerdeValue F}

theorem lineStatus_ready (s : Serial) : (s.read 5).1 &&& 0x01 ≠ 0 ↔ s.inputBuffer ≠ [] := by
  obtain ⟨-, hset, hclear⟩ := ready_bit s.lsr
  have hread : (s.read 5).1 = s.lineStatus := rfl
  rw [hread, lineStatus]
  by_cases hinput : s.inputBuffer ≠ []
  · rw [if_pos hinput]
    exact iff_of_true hset hinput
  · rw [if_neg hinput]
    exact iff_of_false (not_not.mpr hclear) hinput

theorem updateIir_inputBuffer (s : Serial) : s.updateIir.inputBuffer = s.inputBuffer := by
  rw [updateIir_eq]

theorem read_inputBuffer (s : Serial) (portOffset : Nat) : (s.read portOffset).2.inputBuffer =
    if portOffset = 0 ∧ s.dlab = false then s.inputBuffer.tail else s.inputBuffer := by
  unfold Serial.read
  split
  · cases hdlab : s.dlab with
    | true => rfl
    | false => exact updateIir_inputBuffer _
  · rfl
  · dsimp only
    split
    · exact updateIir_inputBuffer s
    · rfl
  · rfl
  · rfl
  · rfl
  · rfl
  · rfl
  · rename_i hport _ _ _ _ _ _ _
    rw [if_neg fun h => hport h.1]

theorem write_inputBuffer (s : Serial) (portOffset : Nat) (value : UInt8) :
    (s.write portOffset value).2.inputBuffer = s.inputBuffer := by
  unfold Serial.write Serial.writeData
  split
  · split
    · rfl
    · dsimp only
      split
      · exact updateIir_inputBuffer _
      · exact updateIir_inputBuffer _
  · dsimp only
    split
    · rfl
    · exact updateIir_inputBuffer _
  all_goals rfl

theorem enqueueInput_inputBuffer (s : Serial) (byte : UInt8) :
    (s.enqueueInput byte).inputBuffer = s.inputBuffer ++ [byte] := by
  unfold Serial.enqueueInput
  dsimp only
  split
  · exact updateIir_inputBuffer _
  · rfl

theorem perform_inputBuffer (hserde : Reads serde) (s : Serial) (a : PortAction) :
    (s.perform serde a).inputBuffer =
      if a = .read 0 ∧ s.dlab = false then s.inputBuffer.tail else s.inputBuffer ++ enqueued [a] := by
  cases a with
  | read portOffset =>
    simp only [perform, read_inputBuffer, enqueued, List.append_nil, PortAction.read.injEq]
  | write portOffset value =>
    simp [perform, write_inputBuffer, enqueued]
  | enqueueInput byte =>
    rw [perform, enqueueInput_inputBuffer, if_neg (by simp)]
    rfl
  | renew =>
    simp [perform, renew, restoreState_snapshotState hserde, enqueued]

theorem enqueued_cons (a : PortAction) (as : List PortAction) : enqueued (a :: as) = enqueued [a] ++ enqueued as := by
  cases a with
  | read => rfl
  | write => rfl
  | enqueueInput => rfl
  | renew => rfl

theorem received_append (hserde : Reads serde) (s : Serial) (as : List PortAction) :
    received serde s as ++ (s.run serde as).inputBuffer = s.inputBuffer ++ enqueued as := by
  induction as generalizing s with
  | nil => exact (List.append_nil _).symm
  | cons a as ih =>
    have hrun : s.run serde (a :: as) = (s.perform serde a).run serde as := rfl
    have hinput := perform_inputBuffer hserde s a
    have hready := lineStatus_ready s
    rw [received, hrun, enqueued_cons]
    by_cases hread : a = .read 0 ∧ s.dlab = false
    · obtain ⟨rfl, hdlab⟩ := hread
      rw [if_pos ⟨rfl, hdlab⟩] at hinput
      have hvalue : (s.read 0).1 = s.inputBuffer.headD 0 := by
        have hcases : s.read 0 = if s.dlab then (s.divisorLow, s) else (s.inputBuffer.headD 0, s.readData) := rfl
        rw [hcases, hdlab]
        rfl
      have hnothing : enqueued [.read 0] = [] := rfl
      rw [hnothing, List.nil_append]
      cases hbuffer : s.inputBuffer with
      | nil =>
        rw [if_neg fun h => hready.mp h.2.2 hbuffer, ih, hinput, hbuffer]
        rfl
      | cons byte rest =>
        have hsome : s.inputBuffer ≠ [] := by
          rw [hbuffer]
          exact List.cons_ne_nil _ _
        rw [if_pos ⟨rfl, hdlab, hready.mpr hsome⟩, List.cons_append, ih, hinput, hvalue, hbuffer]
        rfl
    · rw [if_neg hread] at hinput
      rw [if_neg fun h => hread ⟨h.1, h.2.1⟩, ih, hinput, List.append_assoc]

def forgetOutput (s : Serial) : Serial := { s with outputBuffer := [] }

theorem updateIir_forgetOutput (s : Serial) : s.updateIir.forgetOutput = s.forgetOutput.updateIir := by
  rw [updateIir_eq, updateIir_eq]
  rfl

theorem read_forgetOutput (s : Serial) (portOffset : Nat) :
    s.forgetOutput.read portOffset = ((s.read portOffset).1, (s.read portOffset).2.forgetOutput) := by
  unfold Serial.read
  split
  · have hdlab : s.forgetOutput.dlab = s.dlab := rfl
    rw [hdlab]
    cases s.dlab with
    | true => rfl
    | false =>
      have hdata : s.readData.forgetOutput = s.forgetOutput.readData := updateIir_forgetOutput _
      exact Prod.ext rfl hdata.symm
  · rfl
  · have hiir : s.forgetOutput.iir = s.iir := rfl
    rw [hiir]
    dsimp only
    split
    · rw [updateIir_forgetOutput]
    · rfl
  all_goals rfl

theorem writeData_forgetOutput (s : Serial) (value : UInt8) :
    (s.writeData value).2.forgetOutput = s.forgetOutput.updateIir := by
  unfold writeData
  dsimp only
  split
  · exact updateIir_forgetOutput _
  · exact updateIir_forgetOutput _

theorem write_forgetOutput (s : Serial) (portOffset : Nat) (value : UInt8) :
    (s.forgetOutput.write portOffset value).2.forgetOutput = (s.write portOffset value).2.forgetOutput := by
  have hdlab : s.forgetOutput.dlab = s.dlab := rfl
  unfold Serial.write
  split
  · rw [hdlab]
    split
    · rfl
    · rw [writeData_forgetOutput, writeData_forgetOutput]
      rfl
  · rw [hdlab]
    split
    · rfl
    · dsimp only
      rw [updateIir_forgetOutput, updateIir_forgetOutput]
      rfl
  all_goals rfl

theorem enqueueInput_forgetOutput (s : Serial) (byte : UInt8) :
    (s.forgetOutput.enqueueInput byte).forgetOutput = (s.enqueueInput byte).forgetOutput := by
  have hier : s.forgetOutput.ier = s.ier := rfl
  unfold Serial.enqueueInput
  dsimp only
  rw [hier]
  split
  · rw [updateIir_forgetOutput, updateIir_forgetOutput]
    rfl
  · rfl

theorem perform_forgetOutput (hserde : Reads serde) (s : Serial) (a : PortAction) :
    (s.forgetOutput.perform serde a).forgetOutput = (s.perform serde a).forgetOutput := by
  cases a with
  | read portOffset =>
    rw [perform, read_forgetOutput]
    rfl
  | write portOffset value => exact write_forgetOutput s portOffset value
  | enqueueInput byte => exact enqueueInput_forgetOutput s byte
  | renew =>
    rw [perform, perform, renew, renew, restoreState_snapshotState hserde, restoreState_snapshotState hserde]
    rfl

theorem readings_congr (hserde : Reads serde) (as : List PortAction) {s t : Serial}
    (h : s.forgetOutput = t.forgetOutput) : readings serde s as = readings serde t as := by
  induction as generalizing s t with
  | nil => rfl
  | cons a as ih =>
    have hnext : (s.perform serde a).forgetOutput = (t.perform serde a).forgetOutput := by
      rw [← perform_forgetOutput hserde s, h, perform_forgetOutput hserde t]
    cases a with
    | read portOffset =>
      have hs := congrArg Prod.fst (read_forgetOutput s portOffset)
      have ht := congrArg Prod.fst (read_forgetOutput t portOffset)
      rw [h] at hs
      rw [readings, readings, ih hnext, hs.symm.trans ht]
    | write portOffset value => exact ih hnext
    | enqueueInput byte => exact ih hnext
    | renew => exact ih hnext

end Input

/-- From a new port on: the guest gets the input in its order, and a port that is restored goes on like the old one. -/
theorem input_and_snapshot_faithful {serde : SerdeValue F} (hserde : Reads serde) (as : List PortAction) :
    let s := new.run serde as
    received serde new as ++ s.inputBuffer = enqueued as ∧
      ∀ bs, readings serde (s.renew serde) bs = readings serde s bs := by
  refine ⟨received_append hserde new as, fun bs => ?_⟩
  rw [renew, restoreState_snapshotState hserde]
  exact readings_congr hserde bs rfl

theorem input_and_snapshot_faithful_two_bytes :
    let as : List PortAction := [.enqueueInput 0x68, .enqueueInput 0x69, .read 0, .renew, .read 0]
    received (textValue noFloats) new as ++ (new.run (textValue noFloats) as).inputBuffer = [0x68, 0x69] ∧
      ∀ bs, readings (textValue noFloats) ((new.run (textValue noFloats) as).renew (textValue noFloats)) bs =
        readings (textValue noFloats) (new.run (textValue noFloats) as) bs :=
  input_and_snapshot_faithful (textValue_reads noFloats)
    [.enqueueInput 0x68, .enqueueInput 0x69, .read 0, .renew, .read 0]

end CloneVmm.Vmm.Serial
