import CloneVmm.Vmm.AgentListener

namespace CloneVmm.Vmm

open CloneVmm.Lib

namespace ListenerPc

def channel? : ListenerPc → Option Nat
  | installed k _ | handling k => some k
  | waiting | connecting _ | leaving _ | clearing _ => none

def outside : ListenerPc → Bool
  | waiting | leaving _ | clearing _ => true
  | connecting _ | installed _ _ | handling _ => false

end ListenerPc

def ExecPc.channel? : ExecPc → Option Nat
  | waiting k => some k
  | idle | started | drained | sent => none

def ExecPc.isIdle : ExecPc → Bool
  | idle => true
  | started | drained | sent | waiting _ => false

/-- `listener_thread` clears the flag with every connection, `listener_thread_fd` does not. -/
def Socket.clearsFlag : Socket → Bool
  | vsock => true
  | socketpair => false

/-- `raised` tells that the running call has set the flag. -/
structure ExecSystem where
  system : AgentSystem := {}
  execInProgress : Bool := false
  raised : Bool := false

/-- `raise` is the store of `true` to the flag, between the reading of `client_fd` and the draining. -/
inductive ExecAction
  | raise
  | step (a : AgentAction)

def AgentAction.lowers (kind : Socket) (exec : ExecPc) : AgentAction → Bool
  | connect | clearFd => kind.clearsFlag
  | unavailable | timeout | disconnected => true
  | receive => exec.isIdle
  | _ => false

def AgentAction.isStart : AgentAction → Bool
  | start => true
  | _ => false

def AgentAction.isDrain : AgentAction → Bool
  | drain => true
  | _ => false

namespace ExecSystem

def next (kind : Socket) (w : ExecSystem) : ExecAction → Option ExecSystem
  | .raise =>
    match w.system.exec with
    | .started => if w.raised then none else some { w with execInProgress := true, raised := true }
    | _ => none
  | .step a =>
    if a.isDrain && !w.raised then none
    else (w.system.next kind a).map fun t =>
      ⟨t, w.execInProgress && !a.lowers kind t.exec, w.raised && !a.isStart⟩

def Paired (w : ExecSystem) : Prop :=
  ∀ k, w.system.listener = .handling k → w.system.exec = .idle →
    w.system.msgRx = some k ∧ w.execInProgress = false

def resultNext (s : AgentSystem) (k : Nat) : Bool :=
  (s.channels[k]?).any fun ch => ch.queue.head?.any fun msg => msg.origin.isSome

def Orderly (kind : Socket) (w : ExecSystem) : ExecAction → Prop
  | .step .sendFails =>
    w.execInProgress = false ∨ (kind.clearsFlag = true ∧ w.system.listener.outside = true)
  | .step .timeout | .step .disconnected =>
    ∀ k ∈ w.system.exec.channel?, w.system.listener.channel? ≠ some k
  | .step .receive => ∀ k ∈ w.system.exec.channel?, resultNext w.system k = true →
      ∀ j ∈ w.system.listener.channel?, j = k
  | _ => True

structure PairInv (kind : Socket) (w : ExecSystem) : Prop where
  lowered : w.system.exec = .idle →
    w.execInProgress = false ∨ (kind.clearsFlag = true ∧ w.system.listener.outside = true)
  paired : ∀ k ∈ w.system.listener.channel?, w.system.msgRx = some k ∨ w.system.exec = .waiting k

end ExecSystem

namespace AgentSystem

variable {kind : Socket} {s t : AgentSystem} {a : AgentAction}

theorem setMsgRx_listener (rx : Option Nat) : (s.setMsgRx rx).listener = s.listener := by
  unfold setMsgRx
  split <;> rfl

theorem setMsgRx_exec (rx : Option Nat) : (s.setMsgRx rx).exec = s.exec := by
  unfold setMsgRx
  split <;> rfl

theorem setMsgRx_msgRx (rx : Option Nat) : (s.setMsgRx rx).msgRx = rx := by
  unfold setMsgRx
  split <;> rfl

theorem drain_ports : s.drain.listener = s.listener ∧ s.drain.msgRx = s.msgRx ∧ s.drain.exec = .drained := by
  unfold drain
  split <;> exact ⟨rfl, rfl, rfl⟩

structure ListenerStep (s t : AgentSystem) (a : AgentAction) : Prop where
  exec : t.exec = s.exec
  channel : ∀ k ∈ t.listener.channel?, t.msgRx = some k ∨ (k ∈ s.listener.channel? ∧ t.msgRx = s.msgRx)
  outside : t.listener.outside = true ∨ s.listener.outside = false ∨ a = .connect

theorem listenerNext_step (h : s.listenerNext kind a = some t) : ListenerStep s t a := by
  cases a with
  | connect =>
    simp only [listenerNext] at h
    split at h
    · unfold connect at h
      split at h
      · cases h
        exact ⟨rfl, fun k hk => (Option.some_ne_none k hk.symm).elim, .inr (.inr rfl)⟩
      · cases h
      · cases h
        exact ⟨rfl, fun k hk => (Option.some_ne_none k hk.symm).elim, .inr (.inr rfl)⟩
    · cases h
  | install =>
    simp only [listenerNext] at h
    split at h
    · rename_i first hlistener
      cases h
      refine ⟨setMsgRx_exec _, fun k hk => ?_, .inr (.inl (by rw [hlistener]; rfl))⟩
      cases hk
      exact .inl (setMsgRx_msgRx _)
    · cases h
  | pushFirst =>
    simp only [listenerNext] at h
    split at h
    · rename_i k first hlistener
      cases h
      have hinside : s.listener.outside = false := by rw [hlistener]; rfl
      have hchannel : s.listener.channel? = some k := by rw [hlistener]; rfl
      cases first with
      | none => exact ⟨rfl, fun j hj => .inr ⟨hchannel.trans hj, rfl⟩, .inr (.inl hinside)⟩
      | some msg => exact ⟨rfl, fun j hj => .inr ⟨hchannel.trans hj, rfl⟩, .inr (.inl hinside)⟩
    · cases h
  | deliver =>
    simp only [listenerNext] at h
    split at h
    · rename_i k hlistener
      unfold deliver at h
      split at h
      · split at h
        · cases h
          exact ⟨rfl, fun j hj => .inr ⟨hj, rfl⟩, .inr (.inl (by rw [hlistener]; rfl))⟩
        · cases h
          exact ⟨rfl, fun k hk => (Option.some_ne_none k hk.symm).elim, .inl rfl⟩
      · cases h
    · cases h
  | hangUp =>
    simp only [listenerNext] at h
    split at h
    · cases h
      exact ⟨rfl, fun k hk => (Option.some_ne_none k hk.symm).elim, .inl rfl⟩
    · cases h
  | clearFd =>
    simp only [listenerNext] at h
    split at h
    · cases h
      cases kind with
      | vsock => exact ⟨rfl, fun k hk => (Option.some_ne_none k hk.symm).elim, .inl rfl⟩
      | socketpair => exact ⟨rfl, fun k hk => (Option.some_ne_none k hk.symm).elim, .inl rfl⟩
    · cases h
  | clearRx =>
    simp only [listenerNext] at h
    split at h
    · cases h
      exact ⟨setMsgRx_exec _, fun k hk => (Option.some_ne_none k hk.symm).elim, .inl rfl⟩
    · cases h
  | _ => simp [listenerNext] at h

theorem receive_cases {k : Nat} (h : s.receive k = some t) : t.listener = s.listener ∧
    ((ExecSystem.resultNext s k = true ∧ t.exec = .idle ∧ t.msgRx = some k) ∨
      (t.exec = s.exec ∧ t.msgRx = s.msgRx)) := by
  unfold receive at h
  split at h
  · rename_i msg rest hqueue
    obtain ⟨ch, hch, hqueue⟩ := Option.map_eq_some_iff.mp hqueue
    dsimp only at h
    split at h
    · rename_i call horigin
      cases h
      refine ⟨setMsgRx_listener _, .inl ⟨?_, rfl, setMsgRx_msgRx _⟩⟩
      rw [ExecSystem.resultNext, hch, Option.any_some, hqueue, List.head?_cons, Option.any_some, horigin]
      rfl
    · cases h
      exact ⟨rfl, .inr ⟨rfl, rfl⟩⟩
  · cases h

theorem agentNext_ports (h : s.agentNext a = some t) :
    t.listener = s.listener ∧ t.msgRx = s.msgRx ∧ t.exec = s.exec := by
  cases a with
  | answer exitCode stdout stderr =>
    simp only [agentNext] at h
    split at h
    · cases h
      exact ⟨rfl, rfl, rfl⟩
    · cases h
  | beat | ready | restart =>
    cases h
    exact ⟨rfl, rfl, rfl⟩
  | _ => simp [agentNext] at h

end AgentSystem

namespace ExecSystem

variable {kind : Socket} {w w' : ExecSystem} {t : AgentSystem} {a : AgentAction} {flag raised : Bool}

theorem PairInv.listener (hw : w.PairInv kind) (h : w.system.listenerNext kind a = some t) :
    PairInv kind ⟨t, w.execInProgress && !a.lowers kind t.exec, raised⟩ := by
  obtain ⟨hexec, hchannel, houtside⟩ := AgentSystem.listenerNext_step h
  refine ⟨fun hidle => ?_, fun k hk => ?_⟩
  · obtain hflag | ⟨hclears, hold⟩ := hw.lowered (hexec.symm.trans hidle)
    · exact .inl (by simp [hflag])
    · obtain hout | hin | rfl := houtside
      · exact .inr ⟨hclears, hout⟩
      · rw [hold] at hin
        cases hin
      · exact .inl (by simp [AgentAction.lowers, hclears])
  · obtain hnew | ⟨hold, hsame⟩ := hchannel k hk
    · exact .inl hnew
    · refine (hw.paired k hold).imp ?_ ?_
      · exact fun h => hsame.trans h
      · exact fun h => hexec.trans h

theorem pairInv_of (hlistener : t.listener = w.system.listener)
    (hpaired : ∀ k ∈ w.system.listener.channel?, t.msgRx = some k ∨ t.exec = .waiting k)
    (hlowered : t.exec = .idle → flag = false ∨ (kind.clearsFlag = true ∧ w.system.listener.outside = true)) :
    PairInv kind ⟨t, flag, raised⟩ :=
  ⟨fun hidle => hlistener ▸ hlowered hidle, fun k hk => hpaired k (hlistener ▸ hk)⟩

theorem PairInv.msgRx (hw : w.PairInv kind) (hexec : ∀ k, w.system.exec ≠ .waiting k) {k : Nat}
    (hk : k ∈ w.system.listener.channel?) : w.system.msgRx = some k :=
  (hw.paired k hk).resolve_right (hexec k)

theorem PairInv.exec (hw : w.PairInv kind) (h : w.system.execNext a = some t) (ho : w.Orderly kind (.step a)) :
    PairInv kind ⟨t, w.execInProgress && !a.lowers kind t.exec, raised⟩ := by
  unfold AgentSystem.execNext at h
  split at h
  · rename_i hexec
    simp only [Option.ite_none_right_eq_some, Option.some_inj] at h
    obtain ⟨-, rfl⟩ := h
    refine pairInv_of rfl (fun k hk => .inl (hw.msgRx (by simp [hexec]) hk)) fun _ => ?_
    refine (hw.lowered hexec).imp_left fun hflag => ?_
    simp [hflag]
  · rename_i hexec
    simp only [Option.ite_none_right_eq_some, Option.some_inj] at h
    obtain ⟨-, rfl⟩ := h
    exact pairInv_of rfl (fun k hk => .inl (hw.msgRx (by simp [hexec]) hk)) nofun
  · rename_i hexec
    cases h
    obtain ⟨hlistener, hmsgRx, hdrained⟩ := w.system.drain_ports
    refine pairInv_of hlistener (fun k hk => .inl (hmsgRx.trans (hw.msgRx (by simp [hexec]) hk))) fun hidle => ?_
    cases hdrained.symm.trans hidle
  · rename_i hexec
    cases h
    exact pairInv_of rfl (fun k hk => .inl (hw.msgRx (by simp [hexec]) hk)) nofun
  · rename_i hexec
    cases h
    refine pairInv_of rfl (fun k hk => .inl (hw.msgRx (by simp [hexec]) hk)) fun _ => ?_
    refine ho.imp_left fun hflag => ?_
    simp [hflag]
  · rename_i hexec
    split at h
    · rename_i j hj
      cases h
      refine pairInv_of rfl (fun k hk => .inr ?_) nofun
      have hk := hw.msgRx (by simp [hexec]) hk
      rw [hj, Option.some_inj] at hk
      rw [hk]
    · cases h
  · rename_i hexec
    simp only [Option.ite_none_right_eq_some, Option.some_inj] at h
    obtain ⟨hnone, rfl⟩ := h
    refine pairInv_of rfl (fun k hk => ?_) fun _ => .inl (by simp [AgentAction.lowers])
    have hk := hw.msgRx (by simp [hexec]) hk
    rw [hnone] at hk
    cases hk
  · rename_i j hexec
    obtain ⟨hlistener, ⟨hresult, hidle, hmsgRx⟩ | ⟨hsame, hmsgRx⟩⟩ := AgentSystem.receive_cases h
    · refine pairInv_of hlistener (fun k hk => .inl ?_) fun _ => .inl ?_
      · rw [hmsgRx, ho j (by rw [hexec]; rfl) hresult k hk]
      · simp [AgentAction.lowers, hidle, ExecPc.isIdle]
    · refine pairInv_of hlistener (fun k hk => ?_) fun hidle => ?_
      · exact (hw.paired k hk).imp (fun h => hmsgRx.trans h) fun h => hsame.trans h
      · cases (hexec.symm.trans hsame.symm).trans hidle
  · rename_i j hexec
    cases h
    refine pairInv_of rfl (fun k hk => .inl ?_) fun _ => .inl (by simp [AgentAction.lowers])
    refine (hw.paired k hk).resolve_right fun hwaiting => ?_
    cases hexec.symm.trans hwaiting
    exact ho j (by rw [hexec]; rfl) hk
  · rename_i j hexec
    split at h
    · simp only [Option.ite_none_right_eq_some, Option.some_inj] at h
      obtain ⟨-, rfl⟩ := h
      refine pairInv_of rfl (fun k hk => .inl ?_) fun _ => .inl (by simp [AgentAction.lowers])
      refine (hw.paired k hk).resolve_right fun hwaiting => ?_
      cases hexec.symm.trans hwaiting
      exact ho j (by rw [hexec]; rfl) hk
    · cases h
  · cases h

theorem PairInv.next {a : ExecAction} (hw : w.PairInv kind) (h : w.next kind a = some w') (ho : w.Orderly kind a) :
    w'.PairInv kind := by
  cases a with
  | raise =>
    simp only [ExecSystem.next] at h
    split at h
    · rename_i hexec
      rw [Option.ite_none_left_eq_some, Option.some_inj] at h
      obtain ⟨-, rfl⟩ := h
      refine ⟨fun hidle => ?_, hw.paired⟩
      cases hexec.symm.trans hidle
    · cases h
  | step a =>
    rw [ExecSystem.next, Option.ite_none_left_eq_some] at h
    obtain ⟨-, h⟩ := h
    obtain ⟨t, ht, rfl⟩ := Option.map_eq_some_iff.mp h
    rw [AgentSystem.next, Option.or_eq_some_iff, Option.or_eq_some_iff] at ht
    rcases ht with hlistener | ⟨-, hagent | ⟨-, hexec⟩⟩
    · exact hw.listener hlistener
    · obtain ⟨hlistener, hmsgRx, hexec⟩ := AgentSystem.agentNext_ports hagent
      refine pairInv_of hlistener (fun k hk => ?_) fun hidle => ?_
      · exact (hw.paired k hk).imp (fun h => hmsgRx.trans h) fun h => hexec.trans h
      · refine (hw.lowered (hexec.symm.trans hidle)).imp_left fun hflag => ?_
        simp [hflag]
    · exact hw.exec hexec ho

theorem PairInv.ok (hw : w.PairInv kind) : w.Paired := by
  intro k hlistener hidle
  have hk : k ∈ w.system.listener.channel? := by rw [hlistener]; rfl
  refine ⟨hw.msgRx (by simp [hidle]) hk, (hw.lowered hidle).resolve_right ?_⟩
  rintro ⟨-, hout⟩
  rw [hlistener] at hout
  cases hout

/-- In every interleaving of the listener, the agent and the calls, whose steps are orderly: inside
`handle_client` the next call finds the receiver of the listener's channel, and the flag is not set. -/
theorem paired_of_orderly (kind : Socket) {as : List ExecAction}
    (hrun : Steps (fun w a w' => w.next kind a = some w' ∧ w.Orderly kind a) {} as w) : w.Paired := by
  have hstart : PairInv kind {} := ⟨fun _ => .inl rfl, nofun⟩
  have hinv : w.PairInv kind := hrun.invariant (P := PairInv kind) (fun _ _ _ h hw => hw.next h.1 h.2) hstart
  exact hinv.ok

instance (kind : Socket) (w : ExecSystem) (a : ExecAction) : Decidable (w.Orderly kind a) :=
  match a with
  | .step .sendFails => inferInstanceAs (Decidable (_ ∨ _))
  | .step .timeout | .step .disconnected => inferInstanceAs (Decidable (∀ k ∈ w.system.exec.channel?, _ ≠ _))
  | .step .receive =>
    inferInstanceAs (Decidable (∀ k ∈ w.system.exec.channel?, resultNext w.system k = true →
      ∀ j ∈ w.system.listener.channel?, j = k))
  | .raise | .step .connect | .step .install | .step .pushFirst | .step .deliver | .step .hangUp | .step .clearFd
  | .step .clearRx | .step (.answer _ _ _) | .step .beat | .step .ready | .step .restart | .step .refuse
  | .step .start | .step .drain | .step .send | .step .take | .step .unavailable => .isTrue trivial

def connected : List ExecAction := [.step .connect, .step .install, .step .pushFirst, .step .ready, .step .deliver]

def commanded : List ExecAction := [.step .start, .raise, .step .drain, .step .send, .step .take]

def answered : List ExecAction := [.step (.answer 0 "ok" ""), .step .deliver]

def oneCommand : List ExecAction := List.flatten [connected, commanded, answered, [.step .receive]]

def inside : ListenerPc → Option Nat
  | .handling k => some k
  | _ => none

def ports (w : ExecSystem) : Option Nat × Option Nat × Bool × Bool :=
  (inside w.system.listener, w.system.msgRx, w.system.exec.isIdle, w.execInProgress)

theorem oneCommand_paired : ∃ w, Steps.trace (next .vsock) (Orderly .vsock) {} oneCommand = some w ∧
    w.ports = (some 0, some 0, true, false) ∧ w.Paired := by
  obtain ⟨w, hw⟩ : ∃ w, Steps.trace (next .vsock) (Orderly .vsock) {} oneCommand = some w :=
    Option.isSome_iff_exists.mp (by decide)
  have hports : (Steps.trace (next .vsock) (Orderly .vsock) {} oneCommand).map ports =
      some (some 0, some 0, true, false) := by decide
  rw [hw, Option.map_some, Option.some_inj] at hports
  exact ⟨w, hw, hports, paired_of_orderly .vsock (Steps.of_trace hw)⟩

theorem not_paired_of_ports {k : Nat} {rx : Option Nat} {flag : Bool} (h : w.ports = (some k, rx, true, flag))
    (hwrong : rx ≠ some k ∨ flag = true) : ¬w.Paired := by
  intro hpaired
  simp only [ports, Prod.mk.injEq] at h
  obtain ⟨hinside, hrx, hidle, hflag⟩ := h
  have hlistener : w.system.listener = .handling k := by
    unfold inside at hinside
    split at hinside
    · rename_i j hj
      rw [hj, Option.some_inj.mp hinside]
    · cases hinside
  have hexec : w.system.exec = .idle := by
    cases hexec : w.system.exec with
    | idle => rfl
    | started | drained | sent | waiting _ =>
      rw [hexec] at hidle
      cases hidle
  obtain ⟨hreceiver, hlowered⟩ := hpaired k hlistener hexec
  rcases hwrong with h | h
  · exact h (hrx.symm.trans hreceiver)
  · rw [← hflag, hlowered] at h
    cases h

theorem not_paired_of_trace {kind : Socket} {as : List ExecAction} {k : Nat} {rx : Option Nat} {flag : Bool}
    (h : (Steps.trace (next kind) (fun _ _ => True) {} as).map ports = some (some k, rx, true, flag))
    (hwrong : rx ≠ some k ∨ flag = true) :
    ∃ w, Steps (fun w a w' => next kind w a = some w') {} as w ∧ ¬w.Paired := by
  obtain ⟨w, hw, hports⟩ := Option.map_eq_some_iff.mp h
  exact ⟨w, (Steps.of_trace hw).mono fun _ _ _ h => h.1, not_paired_of_ports hports hwrong⟩

def failedSend : List ExecAction :=
  [.step .ready, .step .connect, .step .install, .step .pushFirst, .step .start, .raise, .step .drain, .step .sendFails]

def timedOut : List ExecAction := List.flatten [connected, commanded, [.step .timeout]]

def reconnected : List ExecAction :=
  List.flatten [connected, commanded, answered,
    [.step .hangUp, .step .clearFd, .step .clearRx, .step .connect, .step .install, .step .pushFirst, .step .receive]]

theorem exits_not_paired :
    (∃ w, Steps (fun w a w' => next .socketpair w a = some w') {} failedSend w ∧ ¬w.Paired) ∧
    (∃ w, Steps (fun w a w' => next .vsock w a = some w') {} timedOut w ∧ ¬w.Paired) ∧
    ∃ w, Steps (fun w a w' => next .vsock w a = some w') {} reconnected w ∧ ¬w.Paired := by
  have hsend : (Steps.trace (next .socketpair) (fun _ _ => True) {} failedSend).map ports =
      some (some 0, some 0, true, true) := by decide
  have htimeout : (Steps.trace (next .vsock) (fun _ _ => True) {} timedOut).map ports =
      some (some 0, none, true, false) := by decide
  have hreconnect : (Steps.trace (next .vsock) (fun _ _ => True) {} reconnected).map ports =
      some (some 1, some 0, true, false) := by decide
  exact ⟨not_paired_of_trace hsend (.inr rfl), not_paired_of_trace htimeout (.inl nofun),
    not_paired_of_trace hreconnect (.inl (by decide))⟩

end ExecSystem

end CloneVmm.Vmm
