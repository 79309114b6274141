import CloneVmm.Boot.Snapshot
import CloneVmm.Control.VmHandle

/-!
`control/sync_server.rs`: `handle_incremental_snapshot`, which fetches and discards the dirty log,
lets the guest run on for a moment, pauses it and saves the pages written since.
-/

namespace CloneVmm.Control

open CloneVmm.Lib CloneVmm.Memory CloneVmm.Boot

structure Guest where
  mem : ByteStore
  kvm : DirtyLog

def Guest.write (g : Guest) (w : Nat × UInt8) : Guest where
  mem := writeBytes g.mem w.1 [w.2]
  kvm := g.kvm.mark (w.1 / pageSize)

inductive Event
  | write (addr : Nat) (value : UInt8)
  | fetch

def Guest.onEvent (vm : VmHandle) (g : Guest) : Event → Guest
  | .write addr value => g.write (addr, value)
  | .fetch => { g with kvm := (vm.getDirtyBitmap g.kvm).2 }

def Guest.run (vm : VmHandle) (g : Guest) (events : List Event) : Guest := events.foldl (Guest.onEvent vm) g

structure SnapshotHost where
  hasVmFd : Bool := true
  cleared : Bool := true
  pauseError : Option String := none
  fetchError : Option String := none
  writeError : Option String := none

inductive Response
  | snapshotComplete (path : String)
  | error (message : String)

structure Outcome where
  response : Response
  guest : Guest
  saved : Option IncrementalSnapshot

def clearStale (vm : VmHandle) (cleared : Bool) (g : Guest) : Guest :=
  if cleared then { g with kvm := (vm.getDirtyBitmap g.kvm).2 } else g

def handleIncrementalSnapshot (vm : VmHandle) (host : SnapshotHost) (g : Guest)
    (window : List (Nat × UInt8)) (capturedStates : List (Option VcpuState)) (deviceStates : DeviceStates)
    (outputPath baseTemplate : String) : Outcome :=
  if !host.hasVmFd then ⟨.error "VM fd not available for dirty page tracking", g, none⟩
  else
    let g := window.foldl Guest.write (clearStale vm host.cleared g)
    match host.pauseError, host.fetchError, host.writeError with
    | some message, _, _ => ⟨.error message, g, none⟩
    | none, some e, _ => ⟨.error s!"Incremental snapshot failed: {e}", g, none⟩
    | none, none, writeError =>
      let vcpuStates := capturedStates.map (·.getD .empty)
      let (snapshot, kvm) :=
        saveIncremental g.mem vm.memSize g.kvm vcpuStates deviceStates baseTemplate vm.kvmSlotSize
      match writeError with
      | some e => ⟨.error s!"Incremental snapshot failed: {e}", { g with kvm }, none⟩
      | none => ⟨.snapshotComplete outputPath, { g with kvm }, some snapshot⟩

theorem applyDiff_saveIncremental (vm : VmHandle) (m : ByteStore) (kvm : DirtyLog)
    (vcpuStates : List VcpuState) (deviceStates : DeviceStates) (baseTemplate : String)
    (baseMem : List UInt8) (hbase : baseMem.length = vm.memSize) (i : Nat) :
    (applyDiff baseMem
        (saveIncremental m vm.memSize kvm vcpuStates deviceStates baseTemplate vm.kvmSlotSize).1)[i]? =
      if i / pageSize < vm.totalPages ∧ kvm.reported (i / pageSize) then some (m i) else baseMem[i]? := by
  have hmin : min (vm.kvmSlotSize / pageSize) (vm.memSize / pageSize) = vm.totalPages :=
    Nat.min_eq_right vm.totalPages_le
  rw [applyDiff_getElem? hbase, hmin]
  by_cases hpage : i / pageSize < vm.totalPages
  · rw [← vm.pageDirty_getDirtyBitmap kvm hpage]
    rfl
  · rw [if_neg (by simp [hpage]), if_neg (by simp [hpage])]

theorem foldl_write_kvm (window : List (Nat × UInt8)) (g : Guest) (page : Nat) :
    (window.foldl Guest.write g).kvm.slot0Pages = g.kvm.slot0Pages ∧
      ((window.foldl Guest.write g).kvm.written page ↔
        (∃ w ∈ window, w.1 / pageSize = page) ∨ g.kvm.written page) := by
  induction window generalizing g with
  | nil => simp
  | cons w window ih =>
    obtain ⟨hslot, hwritten⟩ := ih (g.write w)
    constructor
    · exact hslot
    · rw [List.foldl_cons, hwritten]
      simp only [Guest.write, DirtyLog.mark_written, Bool.or_eq_true, beq_iff_eq, List.mem_cons,
        exists_eq_or_imp, eq_comm (a := page)]
      rw [or_assoc]
      exact or_left_comm

theorem foldl_write_mem (window : List (Nat × UInt8)) (g g' : Guest) (h : g.mem = g'.mem) :
    (window.foldl Guest.write g).mem = (window.foldl Guest.write g').mem := by
  induction window generalizing g g' with
  | nil => exact h
  | cons w window ih =>
    apply ih
    simp only [Guest.write, h]

theorem run_slot0Pages (vm : VmHandle) (g : Guest) (events : List Event) :
    (g.run vm events).kvm.slot0Pages = g.kvm.slot0Pages := by
  induction events generalizing g with
  | nil => rfl
  | cons e events ih =>
    rw [Guest.run, List.foldl_cons, ← Guest.run, ih]
    cases e <;> rfl

def atPause (vm : VmHandle) (base : Guest) (before : List Event) (window : List (Nat × UInt8)) : ByteStore :=
  (window.foldl Guest.write (base.run vm before)).mem

def Collected (vm : VmHandle) (base : Guest) (before : List Event) (cleared : Bool)
    (window : List (Nat × UInt8)) (page : Nat) : Prop :=
  page < base.kvm.slot0Pages ∧
    ((∃ w ∈ window, w.1 / pageSize = page) ∨ (cleared = false ∧ (base.run vm before).kvm.written page))

theorem reported_iff_collected (vm : VmHandle) (base : Guest) (before : List Event) (cleared : Bool)
    (window : List (Nat × UInt8)) (page : Nat) :
    (window.foldl Guest.write (clearStale vm cleared (base.run vm before))).kvm.reported page ↔
      Collected vm base before cleared window page := by
  obtain ⟨hslot, hwritten⟩ := foldl_write_kvm window (clearStale vm cleared (base.run vm before)) page
  have hbase := run_slot0Pages vm base before
  have hstale : (clearStale vm cleared (base.run vm before)).kvm.slot0Pages = base.kvm.slot0Pages := by
    cases cleared <;> exact hbase
  rw [DirtyLog.reported, Bool.and_eq_true, decide_eq_true_eq, hslot, hwritten, hstale, Collected]
  apply and_congr_right
  intro hpage
  apply or_congr_right
  cases cleared with
  | false => simp [clearStale]
  | true => simp [clearStale, VmHandle.getDirtyBitmap, getDirtyBitmap_written, hbase, hpage]

theorem saved_eq {vm : VmHandle} {host : SnapshotHost} {g : Guest} {window : List (Nat × UInt8)}
    {capturedStates : List (Option VcpuState)} {deviceStates : DeviceStates}
    {outputPath baseTemplate : String} {snapshot : IncrementalSnapshot}
    (h : (handleIncrementalSnapshot vm host g window capturedStates deviceStates outputPath
      baseTemplate).saved = some snapshot) :
    ∃ vcpuStates, snapshot =
      (saveIncremental (window.foldl Guest.write (clearStale vm host.cleared g)).mem vm.memSize
        (window.foldl Guest.write (clearStale vm host.cleared g)).kvm vcpuStates deviceStates baseTemplate
        vm.kvmSlotSize).1 := by
  unfold handleIncrementalSnapshot at h
  split at h
  · cases h
  · split at h
    · cases h
    · cases h
    · split at h
      · cases h
      · exact ⟨_, (Option.some.inj h).symm⟩

theorem readBytes_eq_iff_pages (vm : VmHandle) (m : List UInt8) (m' : ByteStore)
    (hlen : m.length = vm.memSize) :
    m = readBytes m' 0 vm.memSize ↔
      ∀ page < vm.totalPages, ∀ i < pageSize, m[page * pageSize + i]? = some (m' (page * pageSize + i)) := by
  have hsize := vm.memSize_eq
  constructor
  · intro heq page hpage i hi
    have hlt : page * pageSize + i < vm.memSize := by
      have hle : (page + 1) * pageSize ≤ vm.totalPages * pageSize := Nat.mul_le_mul_right _ hpage
      rw [Nat.succ_mul] at hle
      omega
    rw [heq, readBytes_getElem? _ _ _ _ hlt, Nat.zero_add]
  · intro h
    apply List.ext_getElem?
    intro a
    by_cases ha : a < vm.memSize
    · have hpage := h (a / pageSize) (vm.lt_totalPages ha) (a % pageSize) (Nat.mod_lt _ pageSize_pos)
      rw [Nat.div_add_mod'] at hpage
      rw [hpage, readBytes_getElem? _ _ _ _ ha, Nat.zero_add]
    · rw [List.getElem?_eq_none (by omega), List.getElem?_eq_none (by rw [readBytes_length]; omega)]

theorem applied_eq_iff (vm : VmHandle) (base : Guest) (before : List Event) (cleared : Bool)
    (window : List (Nat × UInt8)) (vcpuStates : List VcpuState) (deviceStates : DeviceStates)
    (baseTemplate : String) :
    applyDiff (readBytes base.mem 0 vm.memSize)
        (saveIncremental (atPause vm base before window) vm.memSize
          (window.foldl Guest.write (clearStale vm cleared (base.run vm before))).kvm
          vcpuStates deviceStates baseTemplate vm.kvmSlotSize).1 =
        readBytes (atPause vm base before window) 0 vm.memSize ↔
      ∀ page < vm.totalPages,
        readBytes base.mem (page * pageSize) pageSize ≠
          readBytes (atPause vm base before window) (page * pageSize) pageSize →
        Collected vm base before cleared window page := by
  have hlen : (readBytes base.mem 0 vm.memSize).length = vm.memSize := readBytes_length _ _ _
  rw [readBytes_eq_iff_pages vm _ _ ((applyDiff_length _ _).trans hlen)]
  apply forall_congr'
  intro page
  apply imp_congr_right
  intro hpage
  have hbyte : ∀ i < pageSize, (page * pageSize + i) / pageSize = page := by
    intro i hi
    rw [Nat.add_comm, Nat.add_mul_div_right _ _ pageSize_pos, Nat.div_eq_of_lt hi, Nat.zero_add]
  have hin : ∀ i < pageSize, page * pageSize + i < vm.memSize := by
    intro i hi
    rw [vm.memSize_eq]
    apply (Nat.div_lt_iff_lt_mul pageSize_pos).mp
    rwa [hbyte i hi]
  constructor
  · intro h hne
    by_contra hnot
    apply hne
    apply readBytes_congr
    intro a hlo hhi
    obtain ⟨i, rfl⟩ := Nat.exists_eq_add_of_le hlo
    have hi : i < pageSize := by omega
    have hpageByte := h i hi
    rw [applyDiff_saveIncremental vm _ _ _ _ _ _ hlen, hbyte i hi, if_neg,
      readBytes_getElem? _ _ _ _ (hin i hi), Nat.zero_add] at hpageByte
    · exact Option.some.inj hpageByte
    · rw [reported_iff_collected]
      exact fun hc => hnot hc.2
  · intro h i hi
    rw [applyDiff_saveIncremental vm _ _ _ _ _ _ hlen, hbyte i hi]
    by_cases hc : Collected vm base before cleared window page
    · rw [if_pos ⟨hpage, (reported_iff_collected vm base before cleared window page).mpr hc⟩]
    · rw [if_neg fun hr => hc ((reported_iff_collected vm base before cleared window page).mp hr.2),
        readBytes_getElem? _ _ _ _ (hin i hi), Nat.zero_add]
      have hsame : readBytes base.mem (page * pageSize) pageSize =
          readBytes (atPause vm base before window) (page * pageSize) pageSize := by
        by_contra hne
        exact hc (h hne)
      have hsame' := congrArg (fun bs : List UInt8 => bs[i]?) hsame
      simp only [readBytes_getElem? _ _ _ _ hi] at hsame'
      exact hsame'

theorem incrementalSnapshot_complete_iff (vm : VmHandle) (base : Guest) (before : List Event)
    (host : SnapshotHost) (window : List (Nat × UInt8)) (capturedStates : List (Option VcpuState))
    (deviceStates : DeviceStates) (outputPath baseTemplate : String) (snapshot : IncrementalSnapshot)
    (hsaved : (handleIncrementalSnapshot vm host (base.run vm before) window capturedStates deviceStates
      outputPath baseTemplate).saved = some snapshot) :
    applyDiff (readBytes base.mem 0 vm.memSize) snapshot =
        readBytes (atPause vm base before window) 0 vm.memSize ↔
      ∀ page < vm.totalPages,
        readBytes base.mem (page * pageSize) pageSize ≠
          readBytes (atPause vm base before window) (page * pageSize) pageSize →
        Collected vm base before host.cleared window page := by
  obtain ⟨vcpuStates, rfl⟩ := saved_eq hsaved
  have hmem : (window.foldl Guest.write (clearStale vm host.cleared (base.run vm before))).mem =
      atPause vm base before window := by
    apply foldl_write_mem
    unfold clearStale
    split <;> rfl
  rw [hmem]
  exact applied_eq_iff vm base before host.cleared window vcpuStates deviceStates baseTemplate

def zeroGuest : Guest := ⟨fun _ => 0, 256, fun _ => false⟩

theorem incrementalSnapshot_complete_windowWrite :
    ∃ snapshot, (handleIncrementalSnapshot smallVm {} (zeroGuest.run smallVm []) [(0, 1)] [] {} "inc"
        "base").saved = some snapshot ∧
      applyDiff (readBytes zeroGuest.mem 0 smallVm.memSize) snapshot =
        readBytes (atPause smallVm zeroGuest [] [(0, 1)]) 0 smallVm.memSize := by
  refine ⟨_, rfl, (incrementalSnapshot_complete_iff smallVm zeroGuest [] {} [(0, 1)] [] {} "inc" "base"
    _ rfl).mpr ?_⟩
  intro page hpage hne
  have hfirst : page = 0 := by
    by_contra hpos
    apply hne
    apply readBytes_congr
    intro a hlo _
    have ha : a ≠ 0 := by
      have hle : 1 * pageSize ≤ page * pageSize := Nat.mul_le_mul_right _ (by omega)
      have hsize := pageSize_pos
      omega
    exact ((writeBytes_single (fun _ => 0) 0 1 a).trans (if_neg ha)).symm
  subst hfirst
  exact ⟨by decide, .inl ⟨(0, 1), by simp, Nat.zero_div _⟩⟩

theorem incrementalSnapshot_complete_fails :
    ¬ ∀ snapshot, (handleIncrementalSnapshot smallVm {} (zeroGuest.run smallVm [.write 0 1]) [] [] {}
        "inc" "base").saved = some snapshot →
      applyDiff (readBytes zeroGuest.mem 0 smallVm.memSize) snapshot =
        readBytes (atPause smallVm zeroGuest [.write 0 1] []) 0 smallVm.memSize := by
  intro h
  have happlied := (applied_eq_iff smallVm zeroGuest [.write 0 1] true [] [] {} "base").mp (h _ rfl)
  have hne : readBytes zeroGuest.mem (0 * pageSize) pageSize ≠
      readBytes (atPause smallVm zeroGuest [.write 0 1] []) (0 * pageSize) pageSize := by
    intro heq
    have hbyte := congrArg (fun bs : List UInt8 => bs[0]?) heq
    simp only [readBytes_getElem? _ _ _ _ pageSize_pos] at hbyte
    exact absurd (Option.some.inj hbyte) (by decide)
  obtain ⟨-, ⟨w, hw, -⟩ | ⟨hcleared, -⟩⟩ := happlied 0 (by decide) hne
  · cases hw
  · cases hcleared

end CloneVmm.Control
