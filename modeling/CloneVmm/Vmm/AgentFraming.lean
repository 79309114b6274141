import CloneVmm.Lib.Bytes
import CloneVmm.Lib.Run

/-!
The messages of `vmm/agent_listener.rs` on their way into the guest: `send_vmm_message` writes a length and a text,
and `recv_message` of the agent reads them with calls of `recv` that time out after 50 ms.
-/

namespace CloneVmm.Vmm.AgentFraming

open CloneVmm.Lib

inductive VmmMessage
  | poll
  | pong (pingId : Nat)
  | shutdown
  | exec (command : String) (args : List String)
  deriving DecidableEq

inductive GuestMessage
  | poll
  | shutdown
  | exec (command : String) (args : List String)
  deriving DecidableEq

def GuestMessage.toVmm : GuestMessage → VmmMessage
  | poll => .poll
  | shutdown => .shutdown
  | exec command args => .exec command args

structure Json where
  toVec : VmmMessage → List UInt8
  fromSlice : List UInt8 → Option GuestMessage

def maxMessage : Nat := 1048576

inductive RecvPhase
  | length
  | body (len : Nat) (read : List UInt8)
  deriving DecidableEq

/-- `rest` are the bytes that the agent has not received yet, and `got` the messages that the calls of
`recv_message` have returned. In `length` the next call has not received anything. -/
structure Agent where
  rest : List UInt8
  phase : RecvPhase
  got : List GuestMessage

inductive Recv
  | failed
  | bytes (count : Nat)
  deriving DecidableEq

section Model

variable (json : Json)

def frame (msg : VmmMessage) : List UInt8 := leBytes 4 (json.toVec msg).length ++ json.toVec msg

def stream (msgs : List VmmMessage) : List UInt8 := msgs.flatMap (frame json)

namespace Agent

def start (sent : List VmmMessage) : Agent := ⟨stream json sent, .length, []⟩

def finish (s : Agent) (body : List UInt8) : Agent :=
  { s with phase := .length, got := s.got ++ (json.fromSlice body).toList }

def readLength (s : Agent) (count : Nat) : Option Agent :=
  if count ≤ 4 then
    let t := { s with rest := s.rest.drop count }
    if count ≠ 4 then some t
    else
      let len := leNat (s.rest.take count)
      if len > maxMessage then some t
      else if len = 0 then some (t.finish json [])
      else some { t with phase := .body len [] }
  else none

def readBody (s : Agent) (len : Nat) (read : List UInt8) (count : Nat) : Option Agent :=
  if count ≤ len - read.length then
    let t := { s with rest := s.rest.drop count }
    let read := read ++ s.rest.take count
    if read.length < len then some { t with phase := .body len read } else some (t.finish json read)
  else none

def next (s : Agent) : Recv → Option Agent
  | .failed => some { s with phase := .length }
  | .bytes count =>
    if 0 < count ∧ count ≤ s.rest.length then
      match s.phase with
      | .length => s.readLength json count
      | .body len read => s.readBody json len read count
    else none

def Whole (s : Agent) (a : Recv) : Prop :=
  if s.phase = .length then a = .failed ∨ a = .bytes 4 else a ≠ .failed

instance (s : Agent) (a : Recv) : Decidable (s.Whole a) :=
  inferInstanceAs (Decidable (if s.phase = .length then a = .failed ∨ a = .bytes 4 else a ≠ .failed))

end Agent

inductive Aligned (sent : List GuestMessage) : Agent → Prop
  | between {got todo : List GuestMessage} : sent = got ++ todo →
      Aligned sent ⟨stream json (todo.map GuestMessage.toVmm), .length, got⟩
  | within {got todo : List GuestMessage} {msg : GuestMessage} {read rest : List UInt8} : sent = got ++ msg :: todo →
      read ++ rest = json.toVec msg.toVmm ++ stream json (todo.map GuestMessage.toVmm) →
      read.length < (json.toVec msg.toVmm).length →
      Aligned sent ⟨rest, .body (json.toVec msg.toVmm).length read, got⟩

end Model

section Received

variable {json : Json} {sent : List GuestMessage} {s t : Agent} {a : Recv}

theorem stream_cons (msg : GuestMessage) (todo : List GuestMessage) :
    stream json ((msg :: todo).map GuestMessage.toVmm) =
      leBytes 4 (json.toVec msg.toVmm).length ++
        (json.toVec msg.toVmm ++ stream json (todo.map GuestMessage.toVmm)) := by
  rw [stream, List.map_cons, List.flatMap_cons, frame, List.append_assoc]
  rfl

theorem finish_aligned {got todo : List GuestMessage} {msg : GuestMessage} {phase : RecvPhase}
    (hjson : ∀ m ∈ sent, json.fromSlice (json.toVec m.toVmm) = some m) (hsent : sent = got ++ msg :: todo) :
    Aligned json sent
      (Agent.finish json ⟨stream json (todo.map GuestMessage.toVmm), phase, got⟩ (json.toVec msg.toVmm)) := by
  have hmem : msg ∈ sent := by rw [hsent]; exact List.mem_append_right _ List.mem_cons_self
  rw [Agent.finish, hjson msg hmem]
  exact .between (by rw [hsent, List.append_assoc]; rfl)

theorem readLength_aligned {got todo : List GuestMessage} {count : Nat}
    (hjson : ∀ m ∈ sent, json.fromSlice (json.toVec m.toVmm) = some m)
    (hsize : ∀ m ∈ sent, (json.toVec m.toVmm).length ≤ maxMessage) (hsent : sent = got ++ todo) (hcount : count = 4)
    (hle : count ≤ (stream json (todo.map GuestMessage.toVmm)).length)
    (hstep : Agent.readLength json ⟨stream json (todo.map GuestMessage.toVmm), .length, got⟩ count = some t) :
    Aligned json sent t := by
  subst hcount
  cases todo with
  | nil => exact absurd hle (Nat.not_le.mpr (Nat.succ_pos 3))
  | cons msg todo =>
    have hmsg := hsize msg (by rw [hsent]; exact List.mem_append_right _ List.mem_cons_self)
    have hlen : leNat (leBytes 4 (json.toVec msg.toVmm).length) = (json.toVec msg.toVmm).length := by
      rw [leNat_leBytes]
      exact Nat.mod_eq_of_lt (Nat.lt_of_le_of_lt hmsg (by decide))
    have htake := @List.take_left' _ _ (json.toVec msg.toVmm ++ stream json (todo.map GuestMessage.toVmm)) _
      (leBytes_length 4 (json.toVec msg.toVmm).length)
    have hdrop := @List.drop_left' _ _ (json.toVec msg.toVmm ++ stream json (todo.map GuestMessage.toVmm)) _
      (leBytes_length 4 (json.toVec msg.toVmm).length)
    rw [Agent.readLength, if_pos (Nat.le_refl 4), if_neg (by decide)] at hstep
    dsimp only at hstep
    rw [stream_cons, htake, hdrop, hlen, if_neg (Nat.not_lt.mpr hmsg)] at hstep
    split at hstep
    · rename_i hempty
      cases hstep
      have hnil := List.eq_nil_of_length_eq_zero hempty
      have h := @finish_aligned json sent got todo msg .length hjson hsent
      rwa [hnil] at h ⊢
    · rename_i hne
      cases hstep
      exact .within hsent rfl (Nat.pos_of_ne_zero hne)

theorem readBody_aligned {got todo : List GuestMessage} {msg : GuestMessage} {read rest : List UInt8} {count : Nat}
    (hjson : ∀ m ∈ sent, json.fromSlice (json.toVec m.toVmm) = some m) (hsent : sent = got ++ msg :: todo)
    (hbytes : read ++ rest = json.toVec msg.toVmm ++ stream json (todo.map GuestMessage.toVmm))
    (hread : read.length < (json.toVec msg.toVmm).length) (hle : count ≤ rest.length)
    (hstep : Agent.readBody json ⟨rest, .body (json.toVec msg.toVmm).length read, got⟩ (json.toVec msg.toVmm).length
      read count = some t) : Aligned json sent t := by
  have hsplit : (read ++ rest.take count) ++ rest.drop count =
      json.toVec msg.toVmm ++ stream json (todo.map GuestMessage.toVmm) := by
    rw [List.append_assoc, List.take_append_drop, hbytes]
  have hlength : (read ++ rest.take count).length = read.length + count := by
    rw [List.length_append, List.length_take, Nat.min_eq_left hle]
  simp only [Agent.readBody, Option.ite_none_right_eq_some] at hstep
  obtain ⟨hcount, hstep⟩ := hstep
  split at hstep
  · rename_i hmore
    cases hstep
    exact .within hsent hsplit hmore
  · rename_i hdone
    cases hstep
    obtain ⟨hbody, hrest⟩ := List.append_inj hsplit (by omega)
    rw [hbody, hrest]
    exact finish_aligned hjson hsent

theorem Aligned.step (h : Aligned json sent s) (hjson : ∀ m ∈ sent, json.fromSlice (json.toVec m.toVmm) = some m)
    (hsize : ∀ m ∈ sent, (json.toVec m.toVmm).length ≤ maxMessage) (hstep : s.next json a = some t)
    (hwhole : s.Whole a) : Aligned json sent t := by
  cases h with
  | between hsent =>
    cases a with
    | failed =>
      cases hstep
      exact .between hsent
    | bytes count =>
      simp only [Agent.next, Option.ite_none_right_eq_some] at hstep
      have hfour : count = 4 := by simpa [Agent.Whole] using hwhole
      exact readLength_aligned hjson hsize hsent hfour hstep.1.2 hstep.2
  | within hsent hbytes hread =>
    cases a with
    | failed => exact absurd rfl hwhole
    | bytes count =>
      simp only [Agent.next, Option.ite_none_right_eq_some] at hstep
      exact readBody_aligned hjson hsent hbytes hread hstep.1.2 hstep.2

theorem readLength_rest {count : Nat} (hcount : count ≤ 4) :
    ∃ t, s.readLength json count = some t ∧ t.rest = s.rest.drop count := by
  rw [Agent.readLength, if_pos hcount]
  dsimp only
  split_ifs
  all_goals exact ⟨_, rfl, rfl⟩

theorem readBody_rest {len count : Nat} {read : List UInt8} (hcount : count ≤ len - read.length) :
    ∃ t, s.readBody json len read count = some t ∧ t.rest = s.rest.drop count := by
  rw [Agent.readBody, if_pos hcount]
  dsimp only
  split_ifs
  all_goals exact ⟨_, rfl, rfl⟩

theorem Aligned.goes_on (h : Aligned json sent s) (hne : s.rest ≠ []) :
    ∃ a t, s.next json a = some t ∧ s.Whole a ∧ t.rest.length < s.rest.length := by
  have hpos := List.length_pos_of_ne_nil hne
  cases h with
  | @between got todo hsent =>
    cases todo with
    | nil => exact absurd rfl hne
    | cons msg todo =>
      obtain ⟨t, ht, hrest⟩ := @readLength_rest json
        ⟨stream json ((msg :: todo).map GuestMessage.toVmm), .length, got⟩ 4 (Nat.le_refl 4)
      have hfour : 4 ≤ (stream json ((msg :: todo).map GuestMessage.toVmm)).length := by
        rw [stream_cons, List.length_append, leBytes_length]
        exact Nat.le_add_right _ _
      refine ⟨.bytes 4, t, ?_, .inr rfl, ?_⟩
      · rw [Agent.next, if_pos ⟨Nat.succ_pos 3, hfour⟩]
        exact ht
      · rw [hrest, List.length_drop]
        exact Nat.sub_lt hpos (Nat.succ_pos 3)
  | @within got todo msg read rest hsent hbytes hread =>
    obtain ⟨t, ht, hrest⟩ := @readBody_rest json ⟨rest, .body (json.toVec msg.toVmm).length read, got⟩
      (json.toVec msg.toVmm).length 1 read (Nat.sub_pos_of_lt hread)
    refine ⟨.bytes 1, t, ?_, Recv.noConfusion, ?_⟩
    · rw [Agent.next, if_pos ⟨Nat.one_pos, hpos⟩]
      exact ht
    · rw [hrest, List.length_drop]
      exact Nat.sub_lt hpos Nat.one_pos

end Received

section Delivery

variable {json : Json}

def Delivered (sent : List VmmMessage) (s : Agent) : Prop :=
  s.got.map GuestMessage.toVmm <+: sent ∧ (s.rest = [] → s.got.map GuestMessage.toVmm = sent)

theorem Aligned.delivered {sent : List GuestMessage} {s : Agent} (h : Aligned json sent s) :
    Delivered (sent.map GuestMessage.toVmm) s := by
  cases h with
  | @between got todo hsent =>
    refine ⟨?_, fun hrest => ?_⟩
    · rw [hsent, List.map_append]
      exact List.prefix_append _ _
    · cases todo with
      | nil => rw [hsent, List.append_nil]
      | cons msg todo =>
        have hlength := congrArg List.length hrest
        rw [stream_cons, List.length_append, leBytes_length] at hlength
        exact absurd hlength (Nat.ne_of_gt (Nat.lt_add_right _ (Nat.succ_pos 3)))
  | @within got todo msg read rest hsent hbytes hread =>
    refine ⟨?_, fun hrest => ?_⟩
    · rw [hsent, List.map_append]
      exact List.prefix_append _ _
    · have hlength := congrArg List.length hbytes
      dsimp only at hrest
      rw [hrest, List.append_nil, List.length_append] at hlength
      omega

/-- In every run that meets the condition, the agent gets the messages sent and can go on until it has them all. -/
theorem messages_delivered {sent : List GuestMessage}
    (hjson : ∀ m ∈ sent, json.fromSlice (json.toVec m.toVmm) = some m)
    (hsize : ∀ m ∈ sent, (json.toVec m.toVmm).length ≤ maxMessage) {as : List Recv} {t : Agent}
    (h : Steps (fun s a t => s.next json a = some t ∧ s.Whole a) (Agent.start json (sent.map GuestMessage.toVmm)) as t) :
    Delivered (sent.map GuestMessage.toVmm) t ∧
      (t.rest ≠ [] → ∃ a u, t.next json a = some u ∧ t.Whole a ∧ u.rest.length < t.rest.length) := by
  have hstart : Aligned json sent (Agent.start json (sent.map GuestMessage.toVmm)) := .between rfl
  have ht : Aligned json sent t := h.invariant (fun _ _ _ ha hs => hs.step hjson hsize ha.1 ha.2) hstart
  exact ⟨ht.delivered, ht.goes_on⟩

end Delivery

section Polled

def textBytes (text : String) : List UInt8 := text.toList.map fun c => UInt8.ofNat c.toNat

def pollText : List UInt8 := textBytes "\x7b\"type\":\"Poll\"\x7d"

def pongText (pingId : Nat) : List UInt8 := textBytes ("\x7b\"type\":\"Pong\",\"ping_id\":" ++ toString pingId ++ "\x7d")

def shutdownText : List UInt8 := textBytes "\x7b\"type\":\"Shutdown\"\x7d"

/-- serde_json on the messages without strings. -/
def plainJson : Json where
  toVec msg := match msg with
    | .poll => pollText
    | .pong pingId => pongText pingId
    | .shutdown => shutdownText
    | .exec _ _ => []
  fromSlice body := if body = pollText then some .poll else if body = shutdownText then some .shutdown else none

def poll : List GuestMessage := [.poll]

def pollWhole : List Recv := [.failed, .bytes 4, .bytes 7, .bytes 8, .failed]

theorem messages_delivered_poll :
    ∃ t, Steps.trace (Agent.next plainJson) Agent.Whole (Agent.start plainJson (poll.map GuestMessage.toVmm)) pollWhole =
      some t ∧ t.rest = [] ∧ t.got = [.poll] ∧ Delivered (poll.map GuestMessage.toVmm) t := by
  have hjson : ∀ m ∈ poll, plainJson.fromSlice (plainJson.toVec m.toVmm) = some m := by decide +kernel
  have hsize : ∀ m ∈ poll, (plainJson.toVec m.toVmm).length ≤ maxMessage := by decide +kernel
  obtain ⟨t, ht⟩ : ∃ t, Steps.trace (Agent.next plainJson) Agent.Whole
      (Agent.start plainJson (poll.map GuestMessage.toVmm)) pollWhole = some t :=
    Option.isSome_iff_exists.mp (by decide +kernel)
  have hend : (Steps.trace (Agent.next plainJson) Agent.Whole
      (Agent.start plainJson (poll.map GuestMessage.toVmm)) pollWhole).map (fun t => (t.rest, t.got)) =
        some ([], [.poll]) := by
    decide +kernel
  rw [ht, Option.map_some, Option.some_inj, Prod.mk.injEq] at hend
  exact ⟨t, ht, hend.1, hend.2, (messages_delivered hjson hsize (Steps.of_trace ht)).1⟩

def pollTimeout : List Recv := [.bytes 4, .failed, .bytes 4, .bytes 4, .bytes 4, .bytes 3]

theorem poll_lost :
    ∃ t, Steps (fun s a t => s.next plainJson a = some t) (Agent.start plainJson (poll.map GuestMessage.toVmm))
      pollTimeout t ∧ t.rest = [] ∧ t.got = [] ∧ ¬ Delivered (poll.map GuestMessage.toVmm) t := by
  obtain ⟨t, ht⟩ : ∃ t, Steps.trace (Agent.next plainJson) (fun _ _ => True)
      (Agent.start plainJson (poll.map GuestMessage.toVmm)) pollTimeout = some t :=
    Option.isSome_iff_exists.mp (by decide +kernel)
  have hend : (Steps.trace (Agent.next plainJson) (fun _ _ => True)
      (Agent.start plainJson (poll.map GuestMessage.toVmm)) pollTimeout).map (fun t => (t.rest, t.got)) =
        some ([], []) := by
    decide
  rw [ht, Option.map_some, Option.some_inj, Prod.mk.injEq] at hend
  refine ⟨t, (Steps.of_trace ht).mono fun _ _ _ h => h.1, hend.1, hend.2, fun hdelivered => ?_⟩
  have hnil := hdelivered.2 hend.1
  rw [hend.2] at hnil
  exact List.cons_ne_nil _ _ hnil.symm

end Polled

end CloneVmm.Vmm.AgentFraming
