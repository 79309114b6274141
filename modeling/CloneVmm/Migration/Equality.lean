import CloneVmm.Migration.Invariant

namespace CloneVmm.Migration

open CloneVmm.Lib CloneVmm.Memory CloneVmm.Boot CloneVmm.Control

variable {env : Env} {s : Sys} {msgs : List (UInt8 × List UInt8)}

theorem Inv.memoryEqual (h : Inv env s msgs) : MemoryEqual env s := by
  intro hphase a ha
  have hstatus := h.acked (.inr hphase)
  obtain ⟨rfl, -⟩ := h.received hstatus
  have hsource : s.source = s.atPause := by rw [Sys.source, hphase]; rfl
  have hcopy := h.copy
  rw [hphase, hsource] at hcopy
  rcases hcopy.covered a ha with h | ⟨h, -⟩ | h
  · exact h
  · cases h
  · exact h.elim

/-- Every run whose steps meet `StepOk` ends with the source's memory at the pause. -/
theorem precopy_memoryEqual (env : Env) (mem : ByteStore) (kvm : DirtyLog) (actions : List Action)
    (s : Sys) (hrun : OkRuns env (start mem kvm) actions s) : MemoryEqual env s := by
  have hinv : ∃ msgs, Inv env s msgs := by
    refine Steps.invariant (P := fun s => ∃ msgs, Inv env s msgs) ?_ hrun ⟨[], .start mem kvm⟩
    rintro s a t ⟨hstep, hok⟩ ⟨msgs, h⟩
    exact h.step hstep hok
  obtain ⟨msgs, h⟩ := hinv
  exact h.memoryEqual

def smallEnv : Env where
  vm := Control.smallVm
  config := {}
  capturedStates := [some .empty]
  deviceJson := []
  parseDeviceStates := fun _ => true
  blockLimit := 2 ^ 30

theorem smallEnv_totalPages : smallEnv.vm.totalPages = 256 := by decide

theorem smallEnv_bitmap (kvm : DirtyLog) (i : Nat) (hi : i < 256) :
    pageDirty (smallEnv.vm.getDirtyBitmap kvm).1 i = kvm.reported i :=
  smallEnv.vm.pageDirty_getDirtyBitmap kvm hi

theorem reaches_cutover (mem atPause m : ByteStore) (kvm : DirtyLog) (stats : MigrationStats) (n : Nat) :
    Reaches smallEnv
      { mem, atPause, kvm, phase := .vcpu 0, stats, wire := writeMsg msgFinalRound [],
        receiver := { mem := m, pagesReceived := n } }
      { mem, atPause, kvm, phase := .complete, stats,
        receiver := { mem := m, pagesReceived := n, vcpuStates := [.empty], deviceStates := some [],
                      gotFinal := true, status := .complete } } := by
  refine .head .receiver rfl trivial ?_
  refine .head .sender rfl (show (encodeVcpuState 0 .empty).length < 2 ^ 32 by decide) ?_
  refine .head .sender rfl (show smallEnv.deviceJson.length < 2 ^ 32 by decide) ?_
  refine .head .sender rfl trivial ?_
  refine .head .receiver rfl trivial ?_
  refine .head .receiver rfl trivial ?_
  refine .head .receiver rfl trivial ?_
  exact Reaches.of_step .sender rfl trivial

theorem reaches_complete (mem atPause m : ByteStore) (kvm : DirtyLog) (stats : MigrationStats) (n : Nat)
    (hclean : ∀ i < 256, kvm.reported i = false) :
    ∃ t, Reaches smallEnv
        { mem, atPause, kvm, phase := .paused, stats, receiver := { mem := m, pagesReceived := n } } t ∧
      t.phase = .complete ∧ t.receiver.mem = m ∧ t.atPause = atPause := by
  let fetched := smallEnv.vm.getDirtyBitmap kvm
  let sending : Sys :=
    { mem, atPause, kvm := fetched.2, stats, wire := writeMsg msgFinalRound [],
      receiver := { mem := m, pagesReceived := n } }
  have hmarks : ∀ i < smallEnv.vm.totalPages, (Pass.final fetched.1).marks i = false := by
    intro i hi
    rw [smallEnv_totalPages] at hi
    exact (smallEnv_bitmap kvm i hi).trans (hclean i hi)
  have hpass := (reaches_cleanPages (s := sending) _ [] hmarks).trans (reaches_passEnd _)
  have hcut := reaches_cutover mem atPause m fetched.2 stats n
  exact ⟨_, .head .sender rfl trivial (hpass.trans hcut), rfl, rfl, rfl⟩

def emptyLog : DirtyLog := ⟨256, fun _ => false⟩

theorem reported_cleared (kvm : DirtyLog) (i : Nat) :
    (smallEnv.vm.getDirtyBitmap kvm).2.reported i = false := by
  simp only [DirtyLog.reported, VmHandle.getDirtyBitmap, getDirtyBitmap_slot0Pages, getDirtyBitmap_written]
  by_cases hi : i < kvm.slot0Pages <;> simp [hi]

theorem smallEnv_hasConverged (kvm : DirtyLog) (hclean : kvm.reported 1 = false) :
    smallEnv.hasConverged 1 (smallEnv.vm.getDirtyBitmap kvm).1 = true := by
  have hcount := dirtyCount_lt 256 1 (by decide)
    ((smallEnv_bitmap kvm 1 (by decide)).trans hclean)
  rw [Env.hasConverged, smallEnv_totalPages, Bool.or_eq_true]
  exact .inl (decide_eq_true hcount)

theorem receives_page (s : Sys) (data : List UInt8) (hdata : data.length = 4096)
    (hwire : s.wire = writeMsg msgMemoryPageBatch (encodePageBatch [(0, data)]))
    (hreceiver : s.receiver = {}) :
    Reaches smallEnv s
      { s with wire := [], receiver := { mem := writeBytes (fun _ => 0) 0 data, pagesReceived := 1 } } := by
  refine .of_step .receiver ?_ trivial
  have hlen := encodePageBatch_length [(0, data)] (by simpa using hdata)
  have hdecode := decodePageBatch_encodePageBatch smallEnv.blockLimit [(0, data)] (by simp) (by simp) (by simpa using hdata)
  have hread := readMsg_writeMsg msgMemoryPageBatch (encodePageBatch [(0, data)]) []
    (by rw [hlen]; simp)
  rw [List.append_nil, ← hwire] at hread
  have hmsg : Receiver.onMsg smallEnv {} (msgMemoryPageBatch, encodePageBatch [(0, data)]) =
      { mem := writeBytes (fun _ => 0) 0 data, pagesReceived := 1 } := by
    rw [Receiver.onMsg, if_pos rfl]
    simp only [hdecode, List.foldl_cons, List.foldl_nil, applyPage]
    rw [if_pos (by decide)]
  simp only [step, receiverStep, hread, hreceiver, hmsg]

theorem precopy_memoryEqual_smallEnv :
    ∃ actions s, OkRuns smallEnv (start (writeBytes (fun _ => 0) 0 [1]) emptyLog) actions s ∧
      s.phase = .complete ∧ s.atPause 0 = 1 ∧ ∀ a < smallEnv.vm.memSize, s.receiver.mem a = s.atPause a := by
  let mem := writeBytes (fun _ => 0) 0 [1]
  let data := readBytes mem 0 pageSize
  let kvm := (smallEnv.vm.getDirtyBitmap emptyLog).2
  let fetched := smallEnv.vm.getDirtyBitmap kvm
  let sending : Sys := { mem, kvm }
  let sent : Sys :=
    { mem, kvm, stats := { totalPagesSent := 1 }
      wire := writeMsg msgMemoryPageBatch (encodePageBatch [(0, data)]) }
  let received : Sys :=
    { mem, kvm, phase := .scan .initial smallEnv.vm.totalPages [], stats := { totalPagesSent := 1 }
      receiver := { mem := writeBytes (fun _ => 0) 0 data, pagesReceived := 1 } }
  let converged : Sys :=
    { received with kvm := fetched.2, phase := .converged fetched.1,
                    stats := { totalPagesSent := 1, rounds := 1 } }
  have hclean : ∀ i, kvm.reported i = false := reported_cleared emptyLog
  have hencode : Reaches smallEnv (start mem emptyLog)
      { sending with phase := .encode .initial smallEnv.vm.totalPages [] [] [0] } := by
    have hprobe : Reaches smallEnv { sending with phase := .scan .initial 0 [] }
        { sending with phase := .probe 0 0 [] } :=
      reaches_probeStart 0 [] (by rw [smallEnv_totalPages]; decide) rfl
    have hpush : Reaches smallEnv { sending with phase := .probe 0 0 [] }
        { sending with phase := .scan .initial 1 ([] ++ [0 * pageSize]) } :=
      reaches_nonzeroPage 0 0 [] pageSize_pos (by decide) (by decide) rfl
    rw [Nat.zero_mul, List.nil_append] at hpush
    have hskip (hzero : ∀ a, 1 * pageSize ≤ a → mem a = 0) :
        Reaches smallEnv { sending with phase := .scan .initial 1 [0] }
          { sending with phase := .scan .initial smallEnv.vm.totalPages [0] } :=
      reaches_zeroPages [0] 1 (by rw [smallEnv_totalPages]; decide) hzero
    refine .head .sender rfl trivial (hprobe.trans (hpush.trans ((hskip ?_).trans (reaches_flush (by simp)))))
    intro a ha
    have hne : a ≠ 0 := by simp only [pageSize] at ha; omega
    exact (writeBytes_single (fun _ => 0) 0 1 a).trans (if_neg hne)
  have hsend : Reaches smallEnv { sending with phase := .encode .initial smallEnv.vm.totalPages [] [] [0] }
      received := by
    refine (reaches_encodePage (s := sending) [] pageSize 0 (Nat.zero_add _)).trans ?_
    refine .head .sender rfl trivial ?_
    exact receives_page { sent with phase := .scan .initial smallEnv.vm.totalPages [] } data
      (readBytes_length _ _ _) rfl rfl
  have hfetch : Reaches smallEnv received converged := by
    have hend : Reaches smallEnv received { received with phase := .fetch 1 } :=
      reaches_passEnd (s := received) .initial
    exact hend.trans (reaches_converged rfl (smallEnv_hasConverged kvm (hclean 1)))
  have hpause : Reaches smallEnv converged { converged with phase := .paused, atPause := mem } := by
    refine .of_step .sender rfl fun page hpage hdirty => ?_
    rw [smallEnv_totalPages] at hpage
    rw [smallEnv_bitmap kvm page hpage, hclean page] at hdirty
    cases hdirty
  obtain ⟨t, hfinal, hphase, -, hatPause⟩ := reaches_complete mem mem (writeBytes (fun _ => 0) 0 data)
    fetched.2 { totalPagesSent := 1, rounds := 1 } 1 fun i _ => reported_cleared kvm i
  obtain ⟨actions, hrun⟩ := (hencode.trans (hsend.trans (hfetch.trans hpause))).trans hfinal
  refine ⟨actions, t, hrun, hphase, ?_, precopy_memoryEqual smallEnv mem emptyLog actions t hrun hphase⟩
  rw [hatPause]
  rfl

theorem precopy_memoryEqual_fails :
    ¬ ∀ actions s, Runs smallEnv (start (fun _ => 0) emptyLog) actions s → MemoryEqual smallEnv s := by
  intro hall
  let kvm := (smallEnv.vm.getDirtyBitmap emptyLog).2.mark 0
  let fetched := smallEnv.vm.getDirtyBitmap kvm
  let scanning : Sys := { mem := fun _ => 0, kvm := (smallEnv.vm.getDirtyBitmap emptyLog).2 }
  let written : Sys := { mem := writeBytes (fun _ => 0) 0 [1], kvm, phase := .fetch 1 }
  let converged : Sys := { written with kvm := fetched.2, phase := .converged fetched.1, stats := { rounds := 1 } }
  -- the guest writes to page 0 once the initial transfer is over
  have hsent : Reaches smallEnv (start (fun _ => 0) emptyLog) written := by
    refine .head .sender rfl trivial ?_
    refine (reaches_zeroPages (s := scanning) [] 0 (Nat.zero_le _) fun _ _ => rfl).trans ?_
    exact (reaches_passEnd .initial).trans (.of_step (.guestWrite 0 1) rfl fun _ _ => .inl (by decide))
  have hfetch : Reaches smallEnv written converged :=
    reaches_converged rfl (smallEnv_hasConverged kvm (by decide))
  -- the bitmap that holds page 0 is dropped, and KVM's log no longer has it
  have hpause : Runs smallEnv converged [.sender] { converged with phase := .paused, atPause := converged.mem } :=
    .cons rfl (.nil _)
  obtain ⟨t, hfinal, hphase, hmem, hatPause⟩ := reaches_complete written.mem written.mem (fun _ => 0)
    fetched.2 { rounds := 1 } 0 fun i _ => reported_cleared kvm i
  obtain ⟨as, has⟩ := (hsent.trans hfetch).toRun
  obtain ⟨bs, hbs⟩ := hfinal.toRun
  have hequal := hall _ t ((has.append hpause).append hbs) hphase 0 (by decide)
  rw [hmem, hatPause] at hequal
  exact absurd hequal (by decide)

end CloneVmm.Migration
