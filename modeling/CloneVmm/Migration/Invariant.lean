import CloneVmm.Migration.Transfer

namespace CloneVmm.Migration

open CloneVmm.Lib CloneVmm.Memory CloneVmm.Boot CloneVmm.Control

def frames (msgs : List (UInt8 × List UInt8)) : List UInt8 :=
  msgs.flatMap fun msg => writeMsg msg.1 msg.2

def place (allocSize : Nat) (m : ByteStore) (page : Nat × List UInt8) : ByteStore :=
  if (page.1 + pageSize) % 2 ^ 64 ≤ allocSize then writeBytes m page.1 page.2 else m

def applyMsg (env : Env) (m : ByteStore) (msg : UInt8 × List UInt8) : ByteStore :=
  if msg.1 = msgMemoryPageBatch then
    match decodePageBatch env.blockLimit msg.2 with
    | .error _ => m
    | .ok pages => pages.foldl (place env.allocSize) m
  else m

def Phase.stopped : Phase → Bool
  | .complete => true
  | phase => phase.vcpusPaused

def Phase.sentComplete : Phase → Bool
  | .awaitAck | .complete | .failed _ => true
  | _ => false

def Sys.source (s : Sys) : ByteStore := if s.phase.stopped then s.atPause else s.mem

def Sys.base (env : Env) (s : Sys) (msgs : List (UInt8 × List UInt8)) : ByteStore :=
  msgs.foldl (applyMsg env) s.receiver.mem

structure Inv (env : Env) (s : Sys) (msgs : List (UInt8 × List UInt8)) : Prop where
  wire : s.wire = frames msgs
  short : ∀ m ∈ msgs, m.2.length < 2 ^ 32
  copy : Copy env s.phase (s.base env msgs) s.source s.kvm
  frozen : s.phase.vcpusPaused → s.atPause = s.mem
  early : s.phase.sentComplete = false → ∀ m ∈ msgs, m.1 ≠ msgComplete
  last : ∀ pre m post, msgs = pre ++ m :: post → m.1 = msgComplete → post = []
  received : s.receiver.status = .complete → msgs = [] ∧ s.phase.sentComplete
  acked : s.back ≠ [] ∨ s.phase = .complete → s.receiver.status = .complete

variable {env : Env} {s t : Sys} {msgs : List (UInt8 × List UInt8)}

theorem foldl_applyPage (allocSize : Nat) (pages : List (Nat × List UInt8)) (r : Receiver) :
    (pages.foldl (applyPage allocSize) r).mem = pages.foldl (place allocSize) r.mem ∧
      (pages.foldl (applyPage allocSize) r).status = r.status := by
  induction pages generalizing r with
  | nil => exact ⟨rfl, rfl⟩
  | cons page pages ih =>
    have hpage : (applyPage allocSize r page).mem = place allocSize r.mem page ∧
        (applyPage allocSize r page).status = r.status := by
      simp only [applyPage, place]
      split <;> exact ⟨rfl, rfl⟩
    simp only [List.foldl_cons, ih, hpage]
    exact ⟨trivial, trivial⟩

theorem onMsg_mem (r : Receiver) (msg : UInt8 × List UInt8) :
    (r.onMsg env msg).mem = applyMsg env r.mem msg := by
  simp only [Receiver.onMsg, applyMsg]
  by_cases hbatch : msg.1 = msgMemoryPageBatch
  · simp only [if_pos hbatch]
    cases decodePageBatch env.blockLimit msg.2 with
    | error e => rfl
    | ok pages => exact (foldl_applyPage _ _ _).1
  · simp only [if_neg hbatch]
    split
    · rfl
    · split
      · split <;> rfl
      · split
        · split <;> rfl
        · split
          · split <;> rfl
          · rfl

theorem onMsg_complete (r : Receiver) (msg : UInt8 × List UInt8) (hr : r.status = .receiving)
    (h : (r.onMsg env msg).status = .complete) : msg.1 = msgComplete := by
  by_contra hne
  simp only [Receiver.onMsg, if_neg hne] at h
  split at h
  · split at h
    case h_1 e _ => cases e <;> cases h
    case h_2 => rw [(foldl_applyPage _ _ _).2, hr] at h; cases h
  · split at h
    · rw [hr] at h; cases h
    · split at h
      · split at h
        · cases h
        · rw [hr] at h; cases h
      · split at h
        · split at h
          · rw [hr] at h; cases h
          · cases h
        · rw [hr] at h; cases h

theorem readMsg_frames (hshort : ∀ m ∈ msgs, m.2.length < 2 ^ 32) {msg : UInt8 × List UInt8}
    {rest : List UInt8} (h : readMsg (frames msgs) = some (msg, rest)) :
    ∃ msgs', msgs = msg :: msgs' ∧ rest = frames msgs' := by
  cases msgs with
  | nil => cases h
  | cons m msgs' =>
    rw [frames, List.flatMap_cons, readMsg_writeMsg _ _ _ (hshort m List.mem_cons_self)] at h
    cases h
    exact ⟨msgs', rfl, rfl⟩

theorem Inv.receiverStep (h : Inv env s msgs) (hstep : receiverStep env s = some t) :
    ∃ msgs', Inv env t msgs' := by
  simp only [Migration.receiverStep] at hstep
  split at hstep
  case h_2 => cases hstep
  case h_1 msg rest hstatus hread =>
    rw [h.wire] at hread
    obtain ⟨msgs', rfl, rfl⟩ := readMsg_frames h.short hread
    have hbase : msgs'.foldl (applyMsg env) (s.receiver.onMsg env msg).mem = s.base env (msg :: msgs') := by
      rw [onMsg_mem]; rfl
    have hshort : ∀ m ∈ msgs', m.2.length < 2 ^ 32 := fun m hm => h.short m (List.mem_cons_of_mem _ hm)
    have hearly : s.phase.sentComplete = false → ∀ m ∈ msgs', m.1 ≠ msgComplete :=
      fun hs m hm => h.early hs m (List.mem_cons_of_mem _ hm)
    have hlast : ∀ pre m post, msgs' = pre ++ m :: post → m.1 = msgComplete → post = [] :=
      fun pre m post heq => h.last (msg :: pre) m post (by rw [heq]; rfl)
    have hnot : ¬ s.receiver.status = .complete := by rw [hstatus]; exact fun h => nomatch h
    split at hstep
    case h_1 hdone =>
      have htype := onMsg_complete _ _ hstatus hdone
      have hsent : s.phase.sentComplete := by
        by_contra hs
        exact h.early (Bool.eq_false_iff.mpr hs) msg List.mem_cons_self htype
      cases hstep
      refine ⟨msgs', rfl, hshort, ?_, h.frozen, hearly, hlast, ?_, fun _ => hdone⟩
      · simp only [Sys.base, hbase]
        exact h.copy
      · exact fun _ => ⟨h.last [] msg msgs' rfl htype, hsent⟩
    case h_2 hnotdone =>
      cases hstep
      refine ⟨msgs', rfl, hshort, ?_, h.frozen, hearly, hlast, ?_, ?_⟩
      · simp only [Sys.base, hbase]
        exact h.copy
      · exact fun hc => (hnotdone hc).elim
      · exact fun hc => (hnot (h.acked hc)).elim

theorem applyMsg_other {msgType : UInt8} (m : ByteStore) (payload : List UInt8)
    (hne : msgType ≠ msgMemoryPageBatch) : applyMsg env m (msgType, payload) = m := by
  simp [applyMsg, hne]

theorem foldl_place (pages : List (Nat × List UInt8)) (m : ByteStore)
    (hoff : Offsets env.vm.totalPages (pages.map Prod.fst)) :
    pages.foldl (place env.allocSize) m = overlay m pages := by
  induction pages generalizing m with
  | nil => simp only [overlay, List.foldl_nil]
  | cons page pages ih =>
    obtain ⟨p, hp, heq⟩ := hoff page.1 (by simp)
    have hfits : (page.1 + pageSize) % 2 ^ 64 ≤ env.allocSize := by
      have hmod := Nat.mod_le (page.1 + pageSize) (2 ^ 64)
      simp only [heq, Env.allocSize, VmHandle.totalPages, guardSize, pageSize] at *
      omega
    have htail := ih (writeBytes m page.1 page.2) fun o ho => hoff o (List.mem_cons_of_mem _ ho)
    simp only [List.foldl_cons, place, if_pos hfits]
    exact htail

theorem applyMsg_batch {pass : Pass} {pageIdx : Nat} {pages : List (Nat × List UInt8)}
    {page : List UInt8} {todo : List Nat} (m : ByteStore)
    (hwf : (Phase.encode pass pageIdx pages page todo).WellFormed env.vm.totalPages) :
    applyMsg env m (msgMemoryPageBatch, encodePageBatch pages) = overlay m pages ∧
      (encodePageBatch pages).length < 2 ^ 32 := by
  obtain ⟨hidx, hoff, -, hdata, -, hcount⟩ := hwf
  have hlen : pages.length ≤ 64 := Nat.le_trans (Nat.le_add_right _ _) hcount
  have hoff64 : ∀ p ∈ pages, p.1 < 2 ^ 64 := by
    intro p hp
    obtain ⟨i, hi, heq⟩ := hoff p.1 (List.mem_map_of_mem hp)
    have hmb := env.vm.memMb_lt
    simp only [VmHandle.totalPages, VmHandle.memSize, pageSize] at *
    omega
  have hdecode := decodePageBatch_encodePageBatch env.blockLimit pages (by omega) hoff64 hdata
  refine ⟨?_, ?_⟩
  · rw [applyMsg, if_pos rfl, hdecode]
    exact foldl_place pages m (hoff.mono hidx)
  · rw [encodePageBatch_length pages hdata]
    omega

theorem base_snoc (s : Sys) (msg : UInt8 × List UInt8) :
    s.base env (msgs ++ [msg]) = applyMsg env (s.base env msgs) msg := by
  simp [Sys.base]

theorem ne_complete_of_not_sent {phase : Phase} (h : phase.sentComplete = false) :
    phase ≠ .complete := by
  rintro rfl
  cases h

theorem stopped_of_not_sent {phase : Phase} (h : phase.sentComplete = false) :
    phase.stopped = phase.vcpusPaused := by
  cases phase <;> first | rfl | cases h

theorem source_eq {phase' : Phase} (hs : s.phase.sentComplete = false)
    (hs' : phase'.sentComplete = false) (hpaused : phase'.vcpusPaused = s.phase.vcpusPaused)
    (hphase : t.phase = phase') (hmem : t.mem = s.mem) (hpause : t.atPause = s.atPause) :
    t.source = s.source := by
  rw [Sys.source, Sys.source, hphase, hmem, hpause, stopped_of_not_sent hs, stopped_of_not_sent hs',
    hpaused]

theorem Inv.advance (h : Inv env s msgs) {phase' : Phase} {kvm' : DirtyLog} {stats' : MigrationStats}
    (hcopy : Copy env phase' (s.base env msgs) s.source kvm') (hs : s.phase.sentComplete = false)
    (hs' : phase'.sentComplete = false) (hpaused : phase'.vcpusPaused = s.phase.vcpusPaused) :
    Inv env { s with phase := phase', kvm := kvm', stats := stats' } msgs where
  wire := h.wire
  short := h.short
  copy := by
    have hsource := source_eq hs hs' hpaused
      (t := { s with phase := phase', kvm := kvm', stats := stats' }) rfl rfl rfl
    rw [hsource]
    exact hcopy
  frozen := fun hp => h.frozen (hpaused ▸ hp)
  early := fun _ => h.early hs
  last := h.last
  received := fun hr => absurd (h.received hr).2 (by rw [hs]; exact Bool.false_ne_true)
  acked := fun hc => h.acked (hc.imp_right fun hc => absurd hc (ne_complete_of_not_sent hs'))

theorem frames_snoc (msg : UInt8 × List UInt8) :
    frames (msgs ++ [msg]) = frames msgs ++ writeMsg msg.1 msg.2 := by
  simp [frames]

theorem Inv.send (h : Inv env s msgs) {phase' : Phase} {kvm' : DirtyLog} {stats' : MigrationStats}
    {msgType : UInt8} {payload : List UInt8}
    (hcopy : Copy env phase' (applyMsg env (s.base env msgs) (msgType, payload)) s.source kvm')
    (hs : s.phase.sentComplete = false) (hs' : phase'.sentComplete = false)
    (hpaused : phase'.vcpusPaused = s.phase.vcpusPaused) (htype : msgType ≠ msgComplete)
    (hlen : payload.length < 2 ^ 32) :
    Inv env { s.send msgType payload with phase := phase', kvm := kvm', stats := stats' }
      (msgs ++ [(msgType, payload)]) where
  wire := by rw [frames_snoc, ← h.wire]; rfl
  short := by
    intro m hm
    rw [List.mem_append, List.mem_singleton] at hm
    rcases hm with hm | rfl
    · exact h.short m hm
    · exact hlen
  copy := by
    have hsource := source_eq hs hs' hpaused
      (t := { s.send msgType payload with phase := phase', kvm := kvm', stats := stats' }) rfl rfl rfl
    rw [base_snoc, hsource]
    exact hcopy
  frozen := fun hp => h.frozen (hpaused ▸ hp)
  early := by
    intro _ m hm
    rw [List.mem_append, List.mem_singleton] at hm
    rcases hm with hm | rfl
    · exact h.early hs m hm
    · exact htype
  last := by
    intro pre m post heq hm
    have hmem : m ∈ msgs ++ [(msgType, payload)] := by rw [heq]; simp
    rw [List.mem_append, List.mem_singleton] at hmem
    rcases hmem with hmem | rfl
    · exact absurd hm (h.early hs m hmem)
    · exact absurd hm htype
  received := fun hr => absurd (h.received hr).2 (by rw [hs]; exact Bool.false_ne_true)
  acked := fun hc => h.acked (hc.imp_right fun hc => absurd hc (ne_complete_of_not_sent hs'))

theorem pushPage_flags (pass : Pass) (pageIdx : Nat) (batch : List Nat) :
    (pushPage pass pageIdx batch).sentComplete = false ∧
      (pushPage pass pageIdx batch).vcpusPaused = (Phase.scan pass pageIdx batch).vcpusPaused := by
  simp only [pushPage]
  split <;> cases pass <;> exact ⟨rfl, rfl⟩

theorem Inv.scanStep (h : Inv env s msgs) {pass : Pass} {pageIdx : Nat} {batch : List Nat}
    (hphase : s.phase = .scan pass pageIdx batch) :
    Inv env (scanStep env s pass pageIdx batch) msgs := by
  have hcopy := h.copy
  rw [hphase] at hcopy
  have hs : s.phase.sentComplete = false := by rw [hphase]; rfl
  obtain ⟨hsent, hpush⟩ := pushPage_flags pass pageIdx batch
  rw [← hphase] at hpush
  have hpaused : ∀ i b, (Phase.scan pass i b).vcpusPaused = s.phase.vcpusPaused := by
    intro i b
    rw [hphase]
    cases pass <;> rfl
  simp only [Migration.scanStep]
  by_cases hidx : pageIdx < env.vm.totalPages
  · rw [if_pos hidx]
    have hmarked (hpass : pass ≠ .initial) : Inv env
        (if pass.marks pageIdx then
          { s with phase := pushPage pass pageIdx batch, stats := s.stats.pushed pass }
        else { s with phase := .scan pass (pageIdx + 1) batch }) msgs := by
      split
      · exact h.advance (hcopy.scan_dirty hpass hidx) hs hsent hpush
      · rename_i hmarks
        exact h.advance (hcopy.scan_clean hidx (Bool.eq_false_iff.mpr hmarks)) hs rfl (hpaused _ _)
    cases pass with
    | initial => exact h.advance (hcopy.scan_probe hidx) hs rfl (by rw [hphase]; rfl)
    | round n bitmap => exact hmarked (by simp)
    | final bitmap => exact hmarked (by simp)
  · rw [if_neg hidx]
    split
    · rename_i hnil
      subst hnil
      refine h.advance (hcopy.scan_done (Nat.le_of_not_lt hidx)) hs ?_ ?_
      · cases pass <;> rfl
      · rw [hphase]; cases pass <;> rfl
    · refine h.advance (.flush (Nat.le_of_lt hcopy.wf.2.2) hcopy.wf.2.1 hcopy.wf.1 hcopy.unsent
        hcopy.covered) hs rfl ?_
      rw [hphase]; cases pass <;> rfl

theorem Inv.probeStep (h : Inv env s msgs) {pageIdx byte : Nat} {batch : List Nat}
    (hphase : s.phase = .probe pageIdx byte batch) :
    Inv env (probeStep s pageIdx byte batch) msgs := by
  have hcopy := h.copy
  rw [hphase] at hcopy
  have hs : s.phase.sentComplete = false := by rw [hphase]; rfl
  have hsource : s.source = s.mem := by rw [Sys.source, hphase]; rfl
  rw [Migration.probeStep]
  split
  · rename_i hbyte
    split
    · rename_i hzero
      rw [← hsource] at hzero
      exact h.advance (hcopy.probe_zero hbyte hzero) hs rfl (by rw [hphase]; rfl)
    · obtain ⟨hsent, hpush⟩ := pushPage_flags .initial pageIdx batch
      exact h.advance hcopy.probe_nonzero hs hsent (by rw [hpush, hphase]; rfl)
  · rename_i hbyte
    exact h.advance (hcopy.probe_end (Nat.le_of_not_lt hbyte)) hs rfl (by rw [hphase]; rfl)

theorem Inv.source_eq_mem (h : Inv env s msgs) (hs : s.phase.sentComplete = false) :
    s.source = s.mem := by
  rw [Sys.source, stopped_of_not_sent hs]
  split
  · rename_i hp
    exact h.frozen hp
  · rfl

theorem Inv.encodeStep (h : Inv env s msgs) {pass : Pass} {pageIdx : Nat}
    {pages : List (Nat × List UInt8)} {page : List UInt8} {todo : List Nat}
    (hphase : s.phase = .encode pass pageIdx pages page todo) :
    ∃ msgs', Inv env (encodeStep s pass pageIdx pages page todo) msgs' := by
  have hcopy := h.copy
  rw [hphase] at hcopy
  have hs : s.phase.sentComplete = false := by rw [hphase]; rfl
  have hpaused : ∀ ps p td, (Phase.encode pass pageIdx ps p td).vcpusPaused = s.phase.vcpusPaused := by
    intro ps p td
    rw [hphase]
    cases pass <;> rfl
  cases todo with
  | nil =>
    obtain ⟨hbatch, hlen⟩ := applyMsg_batch (s.base env msgs) hcopy.wf
    refine ⟨_, h.send ?_ hs rfl ?_ (by decide) hlen⟩
    · rw [hbatch]; exact hcopy.encode_sent
    · rw [hphase]; cases pass <;> rfl
  | cons offset rest =>
    refine ⟨msgs, ?_⟩
    simp only [Migration.encodeStep]
    split
    · rename_i hlen
      have hbyte := hcopy.encode_byte hlen
      rw [congrFun (h.source_eq_mem hs) (offset + page.length)] at hbyte
      exact h.advance hbyte hs rfl (hpaused _ _ _)
    · rename_i hlen
      exact h.advance (hcopy.encode_page (Nat.le_of_not_lt hlen)) hs rfl (hpaused _ _ _)

theorem Inv.fetchStep (h : Inv env s msgs) {round : Nat} (hphase : s.phase = .fetch round) :
    Inv env (fetchStep env s round) msgs := by
  have hcopy := h.copy
  rw [hphase] at hcopy
  have hs : s.phase.sentComplete = false := by rw [hphase]; rfl
  simp only [Migration.fetchStep]
  split
  · exact h.advance hcopy.fetch_converged hs rfl (by rw [hphase]; rfl)
  · exact h.advance hcopy.fetch_round hs rfl (by rw [hphase]; rfl)

theorem Inv.pauseStep (h : Inv env s msgs) {bitmap : List UInt8} (hphase : s.phase = .converged bitmap)
    (hlost : ∀ page < env.vm.totalPages, pageDirty bitmap page → s.kvm.reported page) :
    Inv env { s with phase := .paused, atPause := s.mem } msgs := by
  have hcopy := h.copy
  rw [hphase] at hcopy
  have hs : s.phase.sentComplete = false := by rw [hphase]; rfl
  refine ⟨h.wire, h.short, ?_, fun _ => rfl, fun _ => h.early hs, h.last, ?_, ?_⟩
  · have hsource := h.source_eq_mem hs
    have hpause := hcopy.pause hlost
    rw [hsource] at hpause
    exact hpause
  · exact fun hr => absurd (h.received hr).2 (by rw [hs]; exact Bool.false_ne_true)
  · exact fun hc => h.acked (hc.imp_right fun hc => nomatch hc)

theorem Inv.vcpuStep (h : Inv env s msgs) {i : Nat} (hphase : s.phase = .vcpu i)
    (hok : StepOk env s .sender) : ∃ msgs', Inv env (vcpuStep env s i) msgs' := by
  have hcopy := h.copy
  rw [hphase] at hcopy
  have hs : s.phase.sentComplete = false := by rw [hphase]; rfl
  simp only [StepOk, hphase] at hok
  simp only [Migration.vcpuStep]
  cases hstate : env.capturedStates[i]? with
  | some state =>
    rw [hstate] at hok
    refine ⟨_, h.send ?_ hs rfl (by rw [hphase]; rfl) (by decide) hok⟩
    rw [applyMsg_other _ _ (by decide)]
    exact hcopy.settled _ rfl (fun _ h => h) rfl trivial (fun _ h => h) rfl
  | none =>
    rw [hstate] at hok
    refine ⟨_, h.send ?_ hs rfl (by rw [hphase]; rfl) (by decide) hok⟩
    rw [applyMsg_other _ _ (by decide)]
    exact hcopy.settled _ rfl (fun _ h => h) rfl trivial (fun _ h => h) rfl

theorem Inv.completeStep (h : Inv env s msgs) (hphase : s.phase = .device) :
    Inv env { s.send msgComplete [] with phase := .awaitAck } (msgs ++ [(msgComplete, [])]) := by
  have hcopy := h.copy
  rw [hphase] at hcopy
  have hs : s.phase.sentComplete = false := by rw [hphase]; rfl
  have hfrozen : s.atPause = s.mem := h.frozen (by rw [hphase]; rfl)
  refine ⟨?_, ?_, ?_, fun _ => hfrozen, (fun hc => nomatch hc), ?_, ?_, ?_⟩
  · rw [frames_snoc, ← h.wire]; rfl
  · intro m hm
    rw [List.mem_append, List.mem_singleton] at hm
    rcases hm with hm | rfl
    · exact h.short m hm
    · decide
  · have hsettled := hcopy.settled .awaitAck rfl (fun _ h => h) rfl trivial (fun _ h => h) rfl
    rw [Sys.source, hphase] at hsettled
    rw [base_snoc, applyMsg_other _ _ (by decide)]
    exact hsettled
  · intro pre m post heq hm
    rcases List.eq_nil_or_concat post with rfl | ⟨post', x, rfl⟩
    · rfl
    · have hmsgs : msgs = pre ++ m :: post' := by
        have hsplit : msgs ++ [(msgComplete, [])] = (pre ++ m :: post') ++ [x] := by
          rw [heq]; simp
        exact (List.append_inj' hsplit rfl).1
      exact absurd hm (h.early hs m (by rw [hmsgs]; simp))
  · exact fun hr => absurd (h.received hr).2 (by rw [hs]; exact Bool.false_ne_true)
  · exact fun hc => h.acked (hc.imp_right fun hc => nomatch hc)

theorem Inv.ackStep (h : Inv env s msgs) (hphase : s.phase = .awaitAck)
    (hstep : ackStep s = some t) : Inv env t msgs := by
  have hcopy := h.copy
  rw [hphase] at hcopy
  have hfrozen : s.atPause = s.mem := h.frozen (by rw [hphase]; rfl)
  have hsettled (phase : Phase) := hcopy.settled phase rfl (fun _ h => h) rfl
  simp only [Sys.source, hphase] at hsettled
  simp only [Migration.ackStep] at hstep
  cases hread : readMsg s.back with
  | none => rw [hread] at hstep; cases hstep
  | some got =>
    have hback : s.back ≠ [] := by
      intro hnil
      rw [hnil] at hread
      cases hread
    have hstatus := h.acked (.inl hback)
    rw [hread] at hstep
    dsimp only at hstep
    split at hstep
    · cases hstep
      refine ⟨h.wire, h.short, ?_, (fun hp => nomatch hp), (fun hc => nomatch hc), h.last, ?_, fun _ => hstatus⟩
      · exact hsettled .complete trivial (fun _ h => h) rfl
      · exact fun _ => ⟨(h.received hstatus).1, rfl⟩
    · cases hstep
      refine ⟨h.wire, h.short, ?_, fun _ => hfrozen, (fun hc => nomatch hc), h.last, ?_, fun _ => hstatus⟩
      · exact hsettled (.failed _) trivial (fun _ h => h) rfl
      · exact fun _ => ⟨(h.received hstatus).1, rfl⟩

theorem Inv.senderStep (h : Inv env s msgs) (hstep : senderStep env s = some t)
    (hok : StepOk env s .sender) : ∃ msgs', Inv env t msgs' := by
  have hcopy := h.copy
  simp only [Migration.senderStep] at hstep
  cases hphase : s.phase with
  | clear =>
    rw [hphase] at hstep hcopy
    cases hstep
    exact ⟨msgs, h.advance (hcopy.start_initial _) (by rw [hphase]; rfl) rfl (by rw [hphase]; rfl)⟩
  | scan pass pageIdx batch =>
    rw [hphase] at hstep
    cases hstep
    exact ⟨msgs, h.scanStep hphase⟩
  | probe pageIdx byte batch =>
    rw [hphase] at hstep
    cases hstep
    exact ⟨msgs, h.probeStep hphase⟩
  | encode pass pageIdx pages page todo =>
    rw [hphase] at hstep
    cases hstep
    exact h.encodeStep hphase
  | fetch round =>
    rw [hphase] at hstep
    cases hstep
    exact ⟨msgs, h.fetchStep hphase⟩
  | converged bitmap =>
    rw [hphase] at hstep
    cases hstep
    simp only [StepOk, hphase] at hok
    exact ⟨msgs, h.pauseStep hphase hok⟩
  | paused =>
    rw [hphase] at hstep hcopy
    cases hstep
    refine ⟨_, h.send ?_ (by rw [hphase]; rfl) rfl (by rw [hphase]; rfl) (by decide) (by decide)⟩
    rw [applyMsg_other _ _ (by decide)]
    exact hcopy.final_fetch _
  | vcpu i =>
    rw [hphase] at hstep
    cases hstep
    exact h.vcpuStep hphase hok
  | device =>
    rw [hphase] at hstep
    cases hstep
    exact ⟨_, h.completeStep hphase⟩
  | awaitAck =>
    rw [hphase] at hstep
    exact ⟨msgs, h.ackStep hphase hstep⟩
  | complete => rw [hphase] at hstep; cases hstep
  | failed error => rw [hphase] at hstep; cases hstep

theorem tracked_of_running {phase : Phase} (hrun : phase.vcpusPaused = false)
    (hne : phase ≠ .complete) : phase.tracked ∧ phase.stopped = false := by
  cases phase with
  | scan pass pageIdx batch => cases pass <;> first | exact ⟨rfl, rfl⟩ | cases hrun
  | encode pass pageIdx pages page todo => cases pass <;> first | exact ⟨rfl, rfl⟩ | cases hrun
  | complete => exact absurd rfl hne
  | _ => first | exact ⟨rfl, rfl⟩ | cases hrun

theorem Inv.guestWrite (h : Inv env s msgs) {addr : Nat} {value : UInt8}
    (hrun : s.phase.vcpusPaused = false) (hok : StepOk env s (.guestWrite addr value)) :
    Inv env { s with mem := writeBytes s.mem addr [value], kvm := s.kvm.mark (addr / pageSize) } msgs := by
  refine ⟨h.wire, h.short, ?_, ?_, h.early, h.last, h.received, h.acked⟩
  · by_cases hdone : s.phase = .complete
    · have hstop : s.phase.stopped = true := by rw [hdone]; rfl
      have hcopy := h.copy.untracked (by rw [hdone]; rfl) (s.kvm.mark (addr / pageSize))
      simp only [Sys.source, hstop, if_true] at hcopy ⊢
      exact hcopy
    · obtain ⟨htracked, hstop⟩ := tracked_of_running hrun hdone
      have hcopy := h.copy.guest_write htracked addr value (hok htracked)
      simp only [Sys.source, hstop, Bool.false_eq_true, if_false] at hcopy ⊢
      exact hcopy
  · exact fun hp => absurd hp (by rw [hrun]; exact Bool.false_ne_true)

theorem Inv.step {a : Action} (h : Inv env s msgs) (hstep : step env s a = some t)
    (hok : StepOk env s a) : ∃ msgs', Inv env t msgs' := by
  cases a with
  | guestWrite addr value =>
    simp only [Migration.step] at hstep
    split at hstep
    · cases hstep
    · rename_i hrun
      cases hstep
      exact ⟨msgs, h.guestWrite (Bool.eq_false_iff.mpr hrun) hok⟩
  | sender => exact h.senderStep hstep hok
  | clearFailed =>
    simp only [Migration.step] at hstep
    split at hstep
    · rename_i hphase
      have hcopy := h.copy
      rw [hphase] at hcopy
      cases hstep
      exact ⟨msgs, h.advance (hcopy.start_initial _) (by rw [hphase]; rfl) rfl (by rw [hphase]; rfl)⟩
    · cases hstep
  | receiver => exact h.receiverStep hstep

theorem Inv.start (mem : ByteStore) (kvm : DirtyLog) : Inv env (start mem kvm) [] where
  wire := rfl
  short := by simp
  copy := ⟨trivial, fun _ _ => rfl, fun _ _ => .inr (.inr trivial)⟩
  frozen := fun h => nomatch h
  early := by simp
  last := by simp
  received := fun h => nomatch h
  acked := fun h => h.elim (fun h => absurd rfl h) (fun h => nomatch h)

end CloneVmm.Migration
