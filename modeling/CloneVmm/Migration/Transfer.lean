import Mathlib.Data.List.Count
import CloneVmm.Migration.Delivered

namespace CloneVmm.Migration

open CloneVmm.Lib CloneVmm.Memory CloneVmm.Boot CloneVmm.Control

/-- What a step must meet: a guest write is logged by slot 0 or still ahead of the sender, the
pages of the bitmap dropped at convergence are in KVM's log again when the vCPUs pause, and the
length of a state message fits its frame. -/
def StepOk (env : Env) (s : Sys) : Action → Prop
  | .guestWrite addr _ => s.phase.tracked → addr < env.vm.memSize →
      addr / pageSize < s.kvm.slot0Pages ∨ s.phase.pending addr
  | .sender =>
    match s.phase with
    | .converged bitmap =>
      ∀ page < env.vm.totalPages, pageDirty bitmap page → s.kvm.reported page
    | .vcpu i =>
      match env.capturedStates[i]? with
      | some state => (encodeVcpuState i (state.getD .empty)).length < 2 ^ 32
      | none => env.deviceJson.length < 2 ^ 32
    | _ => True
  | _ => True

def MemoryEqual (env : Env) (s : Sys) : Prop :=
  s.phase = .complete → ∀ a < env.vm.memSize, s.receiver.mem a = s.atPause a

def Runs (env : Env) : Sys → List Action → Sys → Prop := Steps fun s a t => step env s a = some t

def OkRuns (env : Env) : Sys → List Action → Sys → Prop :=
  Steps fun s a t => step env s a = some t ∧ StepOk env s a

def Reaches (env : Env) (s t : Sys) : Prop := ∃ actions, OkRuns env s actions t

variable {env : Env} {s t u : Sys}

namespace Reaches

theorem refl (s : Sys) : Reaches env s s := ⟨[], .nil s⟩

theorem trans (h : Reaches env s t) (h' : Reaches env t u) : Reaches env s u := by
  obtain ⟨as, h⟩ := h
  obtain ⟨bs, h'⟩ := h'
  exact ⟨as ++ bs, h.append h'⟩

theorem of_step (a : Action) (hstep : step env s a = some t) (hok : StepOk env s a) :
    Reaches env s t := ⟨[a], .cons ⟨hstep, hok⟩ (.nil t)⟩

theorem head (a : Action) (hstep : step env s a = some t) (hok : StepOk env s a)
    (h : Reaches env t u) : Reaches env s u := (of_step a hstep hok).trans h

theorem toRun (h : Reaches env s t) : ∃ actions, Runs env s actions t := by
  obtain ⟨as, h⟩ := h
  exact ⟨as, h.mono fun _ _ _ hstep => hstep.1⟩

end Reaches

theorem reaches_probe (pageIdx : Nat) (batch : List Nat)
    (hzero : ∀ i < pageSize, s.mem (pageIdx * pageSize + i) = 0) (k : Nat) :
    ∀ byte, byte + k = pageSize → s.phase = .probe pageIdx byte batch →
      Reaches env s { s with phase := .scan .initial (pageIdx + 1) batch } := by
  induction k generalizing s with
  | zero =>
    intro byte hbyte hphase
    refine .of_step .sender ?_ (by simp only [StepOk, hphase])
    simp only [step, senderStep, hphase, probeStep, if_neg (show ¬ byte < pageSize by omega)]
  | succ k ih =>
    intro byte hbyte hphase
    have hlt : byte < pageSize := by omega
    have hone : Reaches env s { s with phase := .probe pageIdx (byte + 1) batch } := by
      refine .of_step .sender ?_ (by simp only [StepOk, hphase])
      simp only [step, senderStep, hphase, probeStep, if_pos hlt, if_pos (hzero byte hlt)]
    exact hone.trans (ih hzero (byte + 1) (by omega) rfl)

theorem reaches_probeStart (pageIdx : Nat) (batch : List Nat) (hidx : pageIdx < env.vm.totalPages)
    (hphase : s.phase = .scan .initial pageIdx batch) :
    Reaches env s { s with phase := .probe pageIdx 0 batch } := by
  refine .of_step .sender ?_ (by simp only [StepOk, hphase])
  simp only [step, senderStep, hphase, scanStep, if_pos hidx]

theorem reaches_zeroPage {pageIdx : Nat} {batch : List Nat} (hidx : pageIdx < env.vm.totalPages)
    (hzero : ∀ i < pageSize, s.mem (pageIdx * pageSize + i) = 0)
    (hphase : s.phase = .scan .initial pageIdx batch) :
    Reaches env s { s with phase := .scan .initial (pageIdx + 1) batch } := by
  exact (reaches_probeStart pageIdx batch hidx hphase).trans (reaches_probe pageIdx batch hzero pageSize 0 (Nat.zero_add _) rfl)

theorem reaches_nonzeroPage (pageIdx byte : Nat) (batch : List Nat) (hbyte : byte < pageSize)
    (hnonzero : s.mem (pageIdx * pageSize + byte) ≠ 0) (hlen : batch.length + 1 < batchSize)
    (hphase : s.phase = .probe pageIdx byte batch) :
    Reaches env s
      { s with phase := .scan .initial (pageIdx + 1) (batch ++ [pageIdx * pageSize]) } := by
  refine .of_step .sender ?_ (by simp only [StepOk, hphase])
  have hfull : ¬ batchSize ≤ (batch ++ [pageIdx * pageSize]).length := by simp; omega
  simp only [step, senderStep, hphase, probeStep, if_pos hbyte, if_neg hnonzero, pushPage, if_neg hfull]

theorem reaches_cleanPage {pass : Pass} {pageIdx : Nat} {batch : List Nat}
    (hidx : pageIdx < env.vm.totalPages) (hclean : pass.marks pageIdx = false)
    (hphase : s.phase = .scan pass pageIdx batch) :
    Reaches env s { s with phase := .scan pass (pageIdx + 1) batch } := by
  refine .of_step .sender ?_ (by simp only [StepOk, hphase])
  cases pass with
  | initial => cases hclean
  | round n bitmap =>
    simp only [step, senderStep, hphase, scanStep, if_pos hidx, hclean, Bool.false_eq_true, if_false]
  | final bitmap =>
    simp only [step, senderStep, hphase, scanStep, if_pos hidx, hclean, Bool.false_eq_true, if_false]

theorem reaches_skipped {pass : Pass} {batch : List Nat} (first : Nat)
    (hskip : ∀ t : Sys, t.mem = s.mem → ∀ pageIdx, first ≤ pageIdx → pageIdx < env.vm.totalPages →
      t.phase = .scan pass pageIdx batch →
        Reaches env t { t with phase := .scan pass (pageIdx + 1) batch })
    (k : Nat) : ∀ pageIdx, first ≤ pageIdx → pageIdx + k = env.vm.totalPages →
      Reaches env { s with phase := .scan pass pageIdx batch }
        { s with phase := .scan pass env.vm.totalPages batch } := by
  induction k with
  | zero =>
    rintro pageIdx - rfl
    exact .refl _
  | succ k ih =>
    intro pageIdx hfirst hidx
    have hone := hskip { s with phase := .scan pass pageIdx batch } rfl pageIdx hfirst (by omega) rfl
    exact hone.trans (ih (pageIdx + 1) (by omega) (by omega))

theorem reaches_zeroPages (batch : List Nat) (pageIdx : Nat) (hidx : pageIdx ≤ env.vm.totalPages)
    (hzero : ∀ a, pageIdx * pageSize ≤ a → s.mem a = 0) :
    Reaches env { s with phase := .scan .initial pageIdx batch }
      { s with phase := .scan .initial env.vm.totalPages batch } := by
  refine reaches_skipped pageIdx ?_ (env.vm.totalPages - pageIdx) pageIdx (Nat.le_refl _) (by omega)
  intro t ht i hge hi hphase
  refine reaches_zeroPage hi (fun j _ => ?_) hphase
  rw [ht]
  exact hzero _ (Nat.le_trans (Nat.mul_le_mul_right _ hge) (Nat.le_add_right _ _))

theorem reaches_cleanPages (pass : Pass) (batch : List Nat)
    (hclean : ∀ i < env.vm.totalPages, pass.marks i = false) :
    Reaches env { s with phase := .scan pass 0 batch }
      { s with phase := .scan pass env.vm.totalPages batch } := by
  refine reaches_skipped 0 ?_ env.vm.totalPages 0 (Nat.le_refl _) (Nat.zero_add _)
  intro t _ i _ hi hphase
  exact reaches_cleanPage hi (hclean i hi) hphase

theorem reaches_passEnd (pass : Pass) :
    Reaches env { s with phase := .scan pass env.vm.totalPages [] } { s with phase := pass.next } := by
  refine .of_step .sender ?_ trivial
  simp only [step, senderStep, scanStep, Nat.lt_irrefl, if_false, if_true]

theorem reaches_flush {pass : Pass} {batch : List Nat} (hbatch : batch ≠ []) :
    Reaches env { s with phase := .scan pass env.vm.totalPages batch }
      { s with phase := .encode pass env.vm.totalPages [] [] batch } := by
  refine .of_step .sender ?_ trivial
  simp only [step, senderStep, scanStep, Nat.lt_irrefl, if_false, if_neg hbatch]

theorem reaches_encodePage {pass : Pass} {pageIdx offset : Nat} {rest : List Nat}
    (pages : List (Nat × List UInt8)) (k : Nat) : ∀ n, n + k = pageSize →
      Reaches env { s with phase := .encode pass pageIdx pages (readBytes s.mem offset n) (offset :: rest) }
        { s with
          phase := .encode pass pageIdx (pages ++ [(offset, readBytes s.mem offset pageSize)]) [] rest } := by
  induction k with
  | zero =>
    rintro n rfl
    refine .of_step .sender ?_ trivial
    simp only [step, senderStep, encodeStep, readBytes_length, Nat.lt_irrefl, if_false]
  | succ k ih =>
    intro n hn
    have hone : Reaches env
        { s with phase := .encode pass pageIdx pages (readBytes s.mem offset n) (offset :: rest) }
        { s with phase := .encode pass pageIdx pages (readBytes s.mem offset (n + 1)) (offset :: rest) } := by
      refine .of_step .sender ?_ trivial
      simp only [step, senderStep, encodeStep, readBytes_length, if_pos (show n < pageSize by omega),
        readBytes_append s.mem offset n 1]
      rfl
    exact hone.trans (ih (n + 1) (by omega))

theorem reaches_converged {round : Nat} (hphase : s.phase = .fetch round)
    (hconverged : env.hasConverged round (env.vm.getDirtyBitmap s.kvm).1 = true) :
    Reaches env s
      { s with
        kvm := (env.vm.getDirtyBitmap s.kvm).2
        phase := .converged (env.vm.getDirtyBitmap s.kvm).1
        stats := { s.stats with rounds := round } } := by
  refine .of_step .sender ?_ (by simp only [StepOk, hphase])
  simp only [step, senderStep, hphase, fetchStep, hconverged, if_true]

theorem dirtyCount_lt {bitmap : List UInt8} (usablePages page : Nat) (hpage : page < usablePages)
    (hclean : pageDirty bitmap page = false) : dirtyCount usablePages bitmap < usablePages := by
  have hcount : dirtyCount usablePages bitmap < (List.range usablePages).length :=
    List.countP_lt_length_iff.mpr ⟨page, List.mem_range.mpr hpage, hclean⟩
  rwa [List.length_range] at hcount

end CloneVmm.Migration
