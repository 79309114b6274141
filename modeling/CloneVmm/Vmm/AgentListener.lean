import CloneVmm.Lib.Run

/-!
`vmm/agent_listener.rs`: `send_exec`, the listener thread and the guest agent. A call writes its command
to the connection and waits for a result in the channel that the listener fills; the agent executes the
commands one after another. Results carry nothing that tells which command they are of.
-/

namespace CloneVmm.Vmm

open CloneVmm.Lib

/-- `call` is not in the message: it records the call whose command the agent has executed. -/
inductive AgentMessage
  | ready
  | heartbeat
  | execResult (call : Nat) (exitCode : Int) (stdout stderr : String)
  deriving DecidableEq

def AgentMessage.origin : AgentMessage → Option Nat
  | execResult call _ _ _ => some call
  | ready | heartbeat => none

inductive Socket
  | vsock
  | socketpair

structure Channel where
  queue : List AgentMessage := []
  rx : Bool := true
  tx : Bool := true

def Channel.capacity : Nat := 16

def Channel.dropRx (ch : Channel) : Channel := { ch with queue := [], rx := false }

def Channel.dropTx (ch : Channel) : Channel := { ch with tx := false }

def Channel.trySend (ch : Channel) (msg : AgentMessage) : Channel :=
  if ch.rx = true ∧ ch.queue.length < capacity then { ch with queue := ch.queue ++ [msg] } else ch

/-- Where the listener is, with the channel it sends to. `connecting` has set `client_fd` but not `msg_rx`;
on a socket pair it has read a first message. -/
inductive ListenerPc
  | waiting
  | connecting (first : Option AgentMessage)
  | installed (channel : Nat) (first : Option AgentMessage)
  | handling (channel : Nat)
  | leaving (channel : Nat)
  | clearing (channel : Nat)

def ListenerPc.first : ListenerPc → Option AgentMessage
  | connecting first | installed _ first => first
  | waiting | handling _ | leaving _ | clearing _ => none

/-- Where the one call is that holds `exec_lock`. -/
inductive ExecPc
  | idle
  | started
  | drained
  | sent
  | waiting (channel : Nat)

/-- `msgRx` is the channel whose receiver is kept in `msg_rx`; `todo` are the calls whose commands the
agent has still to execute, `wire` what it has sent; `returned` are the results of calls so far. -/
structure AgentSystem where
  clientFd : Bool := false
  msgRx : Option Nat := none
  channels : List Channel := []
  listener : ListenerPc := .waiting
  todo : List Nat := []
  wire : List AgentMessage := []
  exec : ExecPc := .idle
  call : Nat := 0
  returned : List (Nat × AgentMessage) := []

inductive AgentAction
  | connect | install | pushFirst | deliver | hangUp | clearFd | clearRx
  | answer (exitCode : Int) (stdout stderr : String) | beat | ready | restart
  | refuse | start | drain | send | sendFails | take | unavailable | receive | timeout | disconnected

namespace AgentSystem

def modifyChannel (s : AgentSystem) (k : Nat) (f : Channel → Channel) : AgentSystem :=
  { s with channels := s.channels.modify k f }

def setMsgRx (s : AgentSystem) (rx : Option Nat) : AgentSystem :=
  match s.msgRx with
  | none => { s with msgRx := rx }
  | some k => { s.modifyChannel k Channel.dropRx with msgRx := rx }

def connect (kind : Socket) (s : AgentSystem) : Option AgentSystem :=
  match kind, s.wire with
  | .vsock, _ => some { s with clientFd := true, todo := [], wire := [], listener := .connecting none }
  | .socketpair, [] => none
  | .socketpair, msg :: rest => some { s with clientFd := true, wire := rest, listener := .connecting (some msg) }

def pushFirst (s : AgentSystem) (k : Nat) : Option AgentMessage → AgentSystem
  | none => { s with listener := .handling k }
  | some msg => { s.modifyChannel k fun ch => ch.trySend msg with listener := .handling k }

def deliver (s : AgentSystem) (k : Nat) : Option AgentSystem :=
  match s.wire, s.channels[k]? with
  | msg :: rest, some ch =>
    if ch.rx then some { s.modifyChannel k fun ch => ch.trySend msg with wire := rest }
    else some { s with wire := rest, listener := .leaving k }
  | _, _ => none

def clearFd (kind : Socket) (s : AgentSystem) (k : Nat) : AgentSystem :=
  match kind with
  | .vsock => { s with clientFd := false, todo := [], wire := [], listener := .clearing k }
  | .socketpair => { s with clientFd := false, listener := .clearing k }

def drain (s : AgentSystem) : AgentSystem :=
  match s.msgRx with
  | none => { s with exec := .drained }
  | some k => { s.modifyChannel k (fun ch => { ch with queue := [] }) with exec := .drained }

def receive (s : AgentSystem) (k : Nat) : Option AgentSystem :=
  match (s.channels[k]?).map Channel.queue with
  | some (msg :: rest) =>
    let s' := s.modifyChannel k fun ch => { ch with queue := rest }
    match msg.origin with
    | some _ => some { s'.setMsgRx (some k) with exec := .idle, returned := s.returned ++ [(s.call, msg)] }
    | none => some s'
  | _ => none

def listenerNext (kind : Socket) (s : AgentSystem) : AgentAction → Option AgentSystem
  | .connect =>
    match s.listener with
    | .waiting => s.connect kind
    | _ => none
  | .install =>
    match s.listener with
    | .connecting first =>
      let k := s.channels.length
      some { s.setMsgRx (some k) with
             channels := (s.setMsgRx (some k)).channels ++ [{}], listener := .installed k first }
    | _ => none
  | .pushFirst =>
    match s.listener with
    | .installed k first => some (s.pushFirst k first)
    | _ => none
  | .deliver =>
    match s.listener with
    | .handling k => s.deliver k
    | _ => none
  | .hangUp =>
    match s.listener with
    | .handling k => some { s with listener := .leaving k }
    | _ => none
  | .clearFd =>
    match s.listener with
    | .leaving k => some (s.clearFd kind k)
    | _ => none
  | .clearRx =>
    match s.listener with
    | .clearing k => some { (s.setMsgRx none).modifyChannel k Channel.dropTx with listener := .waiting }
    | _ => none
  | _ => none

def agentNext (s : AgentSystem) : AgentAction → Option AgentSystem
  | .answer exitCode stdout stderr =>
    match s.todo with
    | call :: rest => some { s with todo := rest, wire := s.wire ++ [.execResult call exitCode stdout stderr] }
    | [] => none
  | .beat => some { s with wire := s.wire ++ [.heartbeat] }
  | .ready => some { s with wire := s.wire ++ [.ready] }
  | .restart => some { s with todo := [] }
  | _ => none

def execNext (s : AgentSystem) (a : AgentAction) : Option AgentSystem :=
  match s.exec, a with
  | .idle, .refuse => if s.clientFd = false then some { s with call := s.call + 1 } else none
  | .idle, .start => if s.clientFd = true then some { s with call := s.call + 1, exec := .started } else none
  | .started, .drain => some s.drain
  | .drained, .send => some { s with todo := s.todo ++ [s.call], exec := .sent }
  | .drained, .sendFails => some { s with exec := .idle }
  | .sent, .take =>
    match s.msgRx with
    | some k => some { s with msgRx := none, exec := .waiting k }
    | none => none
  | .sent, .unavailable => if s.msgRx = none then some { s with exec := .idle } else none
  | .waiting k, .receive => s.receive k
  | .waiting k, .timeout => some { s.modifyChannel k Channel.dropRx with exec := .idle }
  | .waiting k, .disconnected =>
    match s.channels[k]? with
    | some ch => if ch.queue.isEmpty ∧ ch.tx = false then some { s.modifyChannel k Channel.dropRx with exec := .idle } else none
    | none => none
  | _, _ => none

def next (kind : Socket) (s : AgentSystem) (a : AgentAction) : Option AgentSystem :=
  (s.listenerNext kind a).or ((s.agentNext a).or (s.execNext a))

def due (s : AgentSystem) : List Nat :=
  s.todo ++ s.wire.filterMap AgentMessage.origin ++ s.listener.first.toList.filterMap AgentMessage.origin
    ++ s.channels.flatMap fun ch => ch.queue.filterMap AgentMessage.origin

def Clean (s : AgentSystem) : AgentAction → Prop
  | .send => s.due = []
  | _ => True

def Busy (s : AgentSystem) : Prop := s.exec = .sent ∨ ∃ k, s.exec = .waiting k

structure Inv (s : AgentSystem) : Prop where
  returned : ∀ p ∈ s.returned, p.2.origin = some p.1
  own : s.Busy → ∀ call ∈ s.due, call = s.call

section Due

variable {s t : AgentSystem} {c k : Nat}

theorem mem_due : c ∈ s.due ↔ c ∈ s.todo ∨ (∃ msg ∈ s.wire, msg.origin = some c) ∨
    (∃ msg, s.listener.first = some msg ∧ msg.origin = some c) ∨
    ∃ ch ∈ s.channels, ∃ msg ∈ ch.queue, msg.origin = some c := by
  simp [due, List.mem_filterMap, List.mem_flatMap]

theorem due_subset (htodo : t.todo ⊆ s.todo) (hwire : t.wire ⊆ s.wire) (hfirst : ∀ msg, t.listener.first = some msg →
      msg.origin = none ∨ msg ∈ s.wire ∨ s.listener.first = some msg)
    (hchannels : ∀ ch ∈ t.channels, ∀ msg ∈ ch.queue, (∃ ch' ∈ s.channels, msg ∈ ch'.queue) ∨ msg ∈ s.wire ∨
      s.listener.first = some msg) : t.due ⊆ s.due := by
  intro c hc
  rw [mem_due] at hc ⊢
  rcases hc with hc | ⟨msg, hmsg, horigin⟩ | ⟨msg, hmsg, horigin⟩ | ⟨ch, hch, msg, hmsg, horigin⟩
  · exact .inl (htodo hc)
  · exact .inr (.inl ⟨msg, hwire hmsg, horigin⟩)
  · rcases hfirst msg hmsg with hnone | hold | hold
    · rw [hnone] at horigin
      cases horigin
    · exact .inr (.inl ⟨msg, hold, horigin⟩)
    · exact .inr (.inr (.inl ⟨msg, hold, horigin⟩))
  · rcases hchannels ch hch msg hmsg with ⟨ch', hch', hold⟩ | hold | hold
    · exact .inr (.inr (.inr ⟨ch', hch', msg, hold, horigin⟩))
    · exact .inr (.inl ⟨msg, hold, horigin⟩)
    · exact .inr (.inr (.inl ⟨msg, hold, horigin⟩))

theorem mem_modifyChannel {f : Channel → Channel} {E : AgentMessage → Prop}
    (hf : ∀ ch, ∀ msg ∈ (f ch).queue, msg ∈ ch.queue ∨ E msg) {ch : Channel}
    (hch : ch ∈ (s.modifyChannel k f).channels) {msg : AgentMessage} (hmsg : msg ∈ ch.queue) :
    (∃ ch' ∈ s.channels, msg ∈ ch'.queue) ∨ E msg := by
  obtain ⟨i, hi, rfl⟩ := List.getElem_of_mem hch
  change i < (s.channels.modify k f).length at hi
  rw [List.length_modify] at hi
  change msg ∈ ((s.channels.modify k f)[i]).queue at hmsg
  rw [List.getElem_modify] at hmsg
  split at hmsg
  · rcases hf _ msg hmsg with hold | hextra
    · exact .inl ⟨_, List.getElem_mem hi, hold⟩
    · exact .inr hextra
  · exact .inl ⟨_, List.getElem_mem hi, hmsg⟩

theorem mem_trySend {ch : Channel} {msg msg' : AgentMessage} (h : msg' ∈ (ch.trySend msg).queue) :
    msg' ∈ ch.queue ∨ msg' = msg := by
  unfold Channel.trySend at h
  split at h
  · simpa using h
  · exact .inl h

theorem setMsgRx_eq (s : AgentSystem) (rx : Option Nat) : ∃ channels, s.setMsgRx rx = { s with msgRx := rx, channels } ∧
    ∀ ch ∈ channels, ∀ msg ∈ ch.queue, ∃ ch' ∈ s.channels, msg ∈ ch'.queue := by
  unfold setMsgRx
  cases s.msgRx with
  | none => exact ⟨s.channels, rfl, fun ch hch msg hmsg => ⟨ch, hch, hmsg⟩⟩
  | some k =>
    refine ⟨(s.modifyChannel k Channel.dropRx).channels, rfl, fun ch hch msg hmsg => ?_⟩
    refine (mem_modifyChannel (E := fun _ => False) ?_ hch hmsg).resolve_right id
    intro ch msg hmsg
    cases hmsg

structure Quiet (s t : AgentSystem) : Prop where
  due : t.due ⊆ s.due
  exec : t.exec = s.exec
  call : t.call = s.call
  returned : t.returned = s.returned

theorem listenerNext_quiet {kind : Socket} {a : AgentAction} (h : s.listenerNext kind a = some t) : Quiet s t := by
  have hsame : ∀ ch ∈ s.channels, ∀ msg ∈ ch.queue, (∃ ch' ∈ s.channels, msg ∈ ch'.queue) ∨ msg ∈ s.wire ∨
      s.listener.first = some msg := fun ch hch msg hmsg => .inl ⟨ch, hch, hmsg⟩
  cases a with
  | connect =>
    simp only [listenerNext] at h
    split at h
    · unfold connect at h
      split at h
      · cases h
        exact ⟨due_subset (by simp) (by simp) (by simp [ListenerPc.first]) hsame, rfl, rfl, rfl⟩
      · cases h
      · rename_i msg rest hwire
        cases h
        refine ⟨due_subset (by simp) (by simp [hwire]) ?_ hsame, rfl, rfl, rfl⟩
        intro msg' hmsg'
        cases hmsg'
        exact .inr (.inl (by simp [hwire]))
    · cases h
  | install =>
    simp only [listenerNext] at h
    split at h
    · rename_i first hlistener
      obtain ⟨channels, hset, hchannels⟩ := setMsgRx_eq s (some s.channels.length)
      cases h
      rw [hset]
      refine ⟨due_subset (by simp) (by simp) ?_ ?_, rfl, rfl, rfl⟩
      · intro msg hmsg
        exact .inr (.inr (by rw [hlistener]; exact hmsg))
      · intro ch hch msg hmsg
        rcases List.mem_append.mp hch with hold | hnew
        · exact .inl (hchannels ch hold msg hmsg)
        · rw [List.mem_singleton.mp hnew] at hmsg
          cases hmsg
    · cases h
  | pushFirst =>
    simp only [listenerNext] at h
    split at h
    · rename_i k first hlistener
      cases h
      cases first with
      | none => exact ⟨due_subset (by simp [pushFirst]) (by simp [pushFirst]) (by simp [pushFirst, ListenerPc.first]) hsame,
          rfl, rfl, rfl⟩
      | some first =>
        refine ⟨due_subset (List.Subset.refl _) (List.Subset.refl _) (by simp [pushFirst, ListenerPc.first]) ?_, rfl, rfl,
          rfl⟩
        intro ch hch msg hmsg
        have hmem := mem_modifyChannel (E := (· = first)) (fun ch msg => mem_trySend) hch hmsg
        rcases hmem with hold | rfl
        · exact .inl hold
        · exact .inr (.inr (by rw [hlistener]; rfl))
    · cases h
  | deliver =>
    simp only [listenerNext] at h
    split at h
    · rename_i k hlistener
      unfold deliver at h
      split at h
      · rename_i msg rest ch hwire hchannel
        have hsub : rest ⊆ s.wire := by simp [hwire]
        split at h
        · cases h
          refine ⟨due_subset (List.Subset.refl _) hsub (by simp [modifyChannel, hlistener, ListenerPc.first]) ?_, rfl, rfl,
            rfl⟩
          intro ch hch msg' hmsg'
          have hmem := mem_modifyChannel (E := (· = msg)) (fun ch msg => mem_trySend) hch hmsg'
          rcases hmem with hold | rfl
          · exact .inl hold
          · exact .inr (.inl (by simp [hwire]))
        · cases h
          exact ⟨due_subset (List.Subset.refl _) hsub (by simp [ListenerPc.first]) hsame, rfl, rfl, rfl⟩
      · cases h
    · cases h
  | hangUp =>
    simp only [listenerNext] at h
    split at h
    · cases h
      exact ⟨due_subset (by simp) (by simp) (by simp [ListenerPc.first]) hsame, rfl, rfl, rfl⟩
    · cases h
  | clearFd =>
    simp only [listenerNext] at h
    split at h
    · cases h
      cases kind with
      | vsock => exact ⟨due_subset (by simp [clearFd]) (by simp [clearFd]) (by simp [clearFd, ListenerPc.first]) hsame, rfl,
          rfl, rfl⟩
      | socketpair => exact ⟨due_subset (by simp [clearFd]) (by simp [clearFd]) (by simp [clearFd, ListenerPc.first]) hsame,
          rfl, rfl, rfl⟩
    · cases h
  | clearRx =>
    simp only [listenerNext] at h
    split at h
    · obtain ⟨channels, hset, hchannels⟩ := setMsgRx_eq s none
      cases h
      rw [hset]
      refine ⟨due_subset (List.Subset.refl _) (List.Subset.refl _) (by simp [ListenerPc.first]) ?_, rfl, rfl, rfl⟩
      intro ch hch msg hmsg
      have hmem := mem_modifyChannel (f := Channel.dropTx) (E := fun _ => False) (fun ch msg hm => .inl hm) hch hmsg
      obtain ⟨ch', hch', hmsg'⟩ := hmem.resolve_right id
      exact .inl (hchannels ch' hch' msg hmsg')
    · cases h
  | _ => simp [listenerNext] at h

theorem agentNext_quiet {a : AgentAction} (h : s.agentNext a = some t) : Quiet s t := by
  have hsame : ∀ ch ∈ s.channels, ∀ msg ∈ ch.queue, (∃ ch' ∈ s.channels, msg ∈ ch'.queue) ∨ msg ∈ s.wire ∨
      s.listener.first = some msg := fun ch hch msg hmsg => .inl ⟨ch, hch, hmsg⟩
  cases a with
  | answer exitCode stdout stderr =>
    simp only [agentNext] at h
    split at h
    · rename_i call rest htodo
      cases h
      refine ⟨fun c hc => ?_, rfl, rfl, rfl⟩
      rw [mem_due] at hc ⊢
      rcases hc with hc | ⟨msg, hmsg, horigin⟩ | hfirst | hqueue
      · exact .inl (htodo ▸ List.mem_cons_of_mem _ hc)
      · rcases List.mem_append.mp hmsg with hold | hnew
        · exact .inr (.inl ⟨msg, hold, horigin⟩)
        · rw [List.mem_singleton.mp hnew] at horigin
          cases horigin
          exact .inl (htodo ▸ List.mem_cons_self)
      · exact .inr (.inr (.inl hfirst))
      · exact .inr (.inr (.inr hqueue))
    · cases h
  | beat =>
    cases h
    refine ⟨fun c hc => ?_, rfl, rfl, rfl⟩
    simpa [due, AgentMessage.origin] using hc
  | ready =>
    cases h
    refine ⟨fun c hc => ?_, rfl, rfl, rfl⟩
    simpa [due, AgentMessage.origin] using hc
  | restart =>
    cases h
    exact ⟨due_subset (by simp) (List.Subset.refl _) (fun msg hmsg => .inr (.inr hmsg)) hsame, rfl, rfl, rfl⟩
  | _ => simp [agentNext] at h

theorem Quiet.inv (h : Quiet s t) (hs : s.Inv) : t.Inv where
  returned := h.returned ▸ hs.returned
  own := by
    intro hbusy call hcall
    rw [h.call]
    refine hs.own ?_ call (h.due hcall)
    rwa [Busy, h.exec] at hbusy

theorem Inv.of_idle (hs : s.Inv) (hreturned : t.returned = s.returned) (hbusy : ¬ t.Busy) : t.Inv :=
  ⟨hreturned ▸ hs.returned, fun h => absurd h hbusy⟩

theorem not_busy (h : t.exec ≠ .sent ∧ ∀ k, t.exec ≠ .waiting k) : ¬ t.Busy := by
  rintro (hsent | ⟨k, hwaiting⟩)
  · exact h.1 hsent
  · exact h.2 k hwaiting

theorem Inv.receive (hs : s.Inv) (hexec : s.exec = .waiting k) (h : s.receive k = some t) : t.Inv := by
  unfold AgentSystem.receive at h
  split at h
  · rename_i msg rest hqueue
    obtain ⟨ch, hch, hqueue⟩ := Option.map_eq_some_iff.mp hqueue
    dsimp only at h
    split at h
    · rename_i call horigin
      obtain ⟨channels, hset, -⟩ := setMsgRx_eq (s.modifyChannel k fun ch => { ch with queue := rest }) (some k)
      rw [hset] at h
      cases h
      have hown : call = s.call := by
        refine hs.own (.inr ⟨k, hexec⟩) call (mem_due.mpr (.inr (.inr (.inr ⟨ch, List.mem_of_getElem? hch, msg, ?_, horigin⟩))))
        rw [hqueue]
        exact List.mem_cons_self
      refine ⟨fun p hp => ?_, fun hbusy => absurd hbusy (not_busy (by simp))⟩
      rcases List.mem_append.mp hp with hold | hnew
      · exact hs.returned p hold
      · rw [List.mem_singleton.mp hnew, horigin, hown]
    · cases h
      have hfirst : ∀ msg, s.listener.first = some msg → msg.origin = none ∨ msg ∈ s.wire ∨ s.listener.first = some msg :=
        fun msg hmsg => .inr (.inr hmsg)
      refine Quiet.inv (s := s) ⟨due_subset (List.Subset.refl _) (List.Subset.refl _) hfirst ?_, rfl, rfl, rfl⟩ hs
      intro ch' hch' msg' hmsg'
      have hmem := mem_modifyChannel (E := (· ∈ rest)) (fun _ _ hrest => .inr hrest) hch' hmsg'
      rcases hmem with hold | hrest
      · exact .inl hold
      · refine .inl ⟨ch, List.mem_of_getElem? hch, ?_⟩
        rw [hqueue]
        exact List.mem_cons_of_mem _ hrest
  · cases h

theorem Inv.execNext (hs : s.Inv) {a : AgentAction} (h : s.execNext a = some t) (hclean : s.Clean a) : t.Inv := by
  unfold AgentSystem.execNext at h
  split at h
  · simp only [Option.ite_none_right_eq_some, Option.some_inj] at h
    obtain ⟨-, rfl⟩ := h
    exact hs.of_idle rfl (not_busy (by simp_all))
  · simp only [Option.ite_none_right_eq_some, Option.some_inj] at h
    obtain ⟨-, rfl⟩ := h
    exact hs.of_idle rfl (not_busy (by simp))
  · cases h
    refine hs.of_idle ?_ (not_busy ?_)
    · unfold drain
      split <;> rfl
    · unfold drain
      split <;> simp
  · cases h
    refine ⟨hs.returned, fun _ call hcall => ?_⟩
    have hdue : ∀ c, c ∉ s.due := by
      intro c
      rw [show s.due = [] from hclean]
      exact List.not_mem_nil
    rcases mem_due.mp hcall with htodo | hrest
    · rcases List.mem_append.mp htodo with hold | hnew
      · exact absurd (mem_due.mpr (.inl hold)) (hdue call)
      · exact List.mem_singleton.mp hnew
    · exact absurd ((mem_due (s := s)).mpr (.inr hrest)) (hdue call)
  · cases h
    exact hs.of_idle rfl (not_busy (by simp))
  · rename_i hexec
    split at h
    · cases h
      exact ⟨hs.returned, fun _ => hs.own (.inl hexec)⟩
    · cases h
  · simp only [Option.ite_none_right_eq_some, Option.some_inj] at h
    obtain ⟨-, rfl⟩ := h
    exact hs.of_idle rfl (not_busy (by simp))
  · rename_i k hexec
    exact hs.receive hexec h
  · cases h
    exact hs.of_idle rfl (not_busy (by simp))
  · split at h
    · simp only [Option.ite_none_right_eq_some, Option.some_inj] at h
      obtain ⟨-, rfl⟩ := h
      exact hs.of_idle rfl (not_busy (by simp))
    · cases h
  · cases h

theorem Inv.step {kind : Socket} (hs : s.Inv) {a : AgentAction} (h : s.next kind a = some t) (hclean : s.Clean a) :
    t.Inv := by
  rw [next, Option.or_eq_some_iff, Option.or_eq_some_iff] at h
  rcases h with hlistener | ⟨-, hagent | ⟨-, hexec⟩⟩
  · exact (listenerNext_quiet hlistener).inv hs
  · exact (agentNext_quiet hagent).inv hs
  · exact hs.execNext hexec hclean

end Due

/-- In every run in which commands are written only when no result is due, a call returns the result of
its own command. -/
theorem sendExec_own (kind : Socket) {as : List AgentAction} {t : AgentSystem}
    (hrun : Steps (fun s a t => s.next kind a = some t ∧ s.Clean a) {} as t) {call : Nat} {msg : AgentMessage}
    (hmsg : (call, msg) ∈ t.returned) : msg.origin = some call := by
  have hstart : Inv {} := ⟨(fun _ hp => nomatch hp), (fun _ _ hcall => nomatch hcall)⟩
  have hinv : t.Inv := hrun.invariant (P := Inv) (fun _ _ _ ha hs => hs.step ha.1 ha.2) hstart
  exact hinv.returned (call, msg) hmsg

instance (s : AgentSystem) (a : AgentAction) : Decidable (s.Clean a) :=
  match a with
  | .send => inferInstanceAs (Decidable (_ = []))
  | .connect | .install | .pushFirst | .deliver | .hangUp | .clearFd | .clearRx | .answer _ _ _ | .beat | .ready
  | .restart | .refuse | .start | .drain | .sendFails | .take | .unavailable | .receive | .timeout | .disconnected =>
    .isTrue trivial

def twoExecs : List AgentAction :=
  [.connect, .install, .pushFirst, .ready, .deliver, .start, .drain, .send, .take, .beat, .answer 0 "ok" "", .deliver,
    .deliver, .receive, .receive, .start, .drain, .send, .take, .answer 1 "" "no", .deliver, .receive]

theorem sendExec_own_two : ∃ t, Steps.trace (next .vsock) Clean {} twoExecs = some t ∧
    t.returned = [(1, .execResult 1 0 "ok" ""), (2, .execResult 2 1 "" "no")] ∧
    ∀ p ∈ t.returned, p.2.origin = some p.1 := by
  have hreturned : (Steps.trace (next .vsock) Clean {} twoExecs).map returned =
      some [(1, .execResult 1 0 "ok" ""), (2, .execResult 2 1 "" "no")] := by decide
  obtain ⟨t, ht, hcalls⟩ := Option.map_eq_some_iff.mp hreturned
  exact ⟨t, ht, hcalls, fun p hp => sendExec_own .vsock (Steps.of_trace ht) hp⟩

def lateResult : List AgentAction :=
  [.connect, .start, .drain, .send, .unavailable, .install, .pushFirst, .start, .drain, .send, .take,
    .answer 7 "first" "", .deliver, .receive]

theorem sendExec_late : ∃ t, Steps (fun s a t => next .vsock s a = some t) {} lateResult t ∧
    (2, AgentMessage.execResult 1 7 "first" "") ∈ t.returned := by
  obtain ⟨t, ht⟩ : ∃ t, Steps.trace (next .vsock) (fun _ _ => True) {} lateResult = some t :=
    Option.isSome_iff_exists.mp (by decide)
  have hreturned : (Steps.trace (next .vsock) (fun _ _ => True) {} lateResult).map returned =
      some [(2, .execResult 1 7 "first" "")] := by decide
  rw [ht, Option.map_some, Option.some_inj] at hreturned
  refine ⟨t, (Steps.of_trace ht).mono fun _ _ _ h => h.1, ?_⟩
  rw [hreturned]
  exact List.mem_singleton_self _

end AgentSystem

end CloneVmm.Vmm
