import CloneVmm.Virtio.VsockStreams

namespace CloneVmm.Virtio.Vsock

open CloneVmm.Lib Raw CloneVmm.Virtio.Vsock.VirtioVsock
open Relation (ReflTransGen)

namespace Session

variable {s t : Session}

theorem synced_step {a : Action} (hnext : s.next a = some t) (h : s.dev.Synced) : t.dev.Synced := by
  unfold VirtioVsock.Synced at h ⊢
  cases next_effect hnext with
  | same _ _ hsynced => exact hsynced h
  | closed _ _ _ hsynced => exact hsynced h
  | @read conn chunk rest _ _ =>
    obtain ⟨-, -, -, havail, hused, -⟩ := readChunk_sameQueues s.dev conn chunk rest
    dsimp only
    rw [havail, hused]
    exact h
  | place _ _ hturn =>
    rw [withCore, rxTurn_dev hturn]
    simp [h]
  | take _ hturn =>
    rw [onPacket_dev, txTurn_dev hturn]
    simpa [rxQueue, txQueue] using h

theorem synced_of_runs {guestCid : UInt64} {mem : ByteStore} {as : List Action} (h : Runs (start guestCid mem) as s) :
    s.dev.Synced := by
  have hstart : (start guestCid mem).dev.Synced := rfl
  have hstep : ∀ (s : Session) (a : Action) (t : Session), s.next a = some t → s.dev.Synced → t.dev.Synced :=
    fun _ _ _ => synced_step
  exact h.invariant hstep hstart

end Session

section Turns

variable {q : QueueInfo} {s t : State} {fuel i : Nat}

/-- What `n` turns do. -/
structure Turned (i n : Nat) (s t : State) : Prop where
  left : chainsLeft i (t.dev.lastAvail rxQueue) + n = chainsLeft i (s.dev.lastAvail rxQueue)
  pending : t.dev.pendingRx.length + n = s.dev.pendingRx.length
  lastUsed : t.dev.lastUsed rxQueue = s.dev.lastUsed rxQueue + .ofNat n
  queues : t.dev.queueConfigs = s.dev.queueConfigs
  layout : t.dev.layout = s.dev.layout
  signals : t.dev.signals = s.dev.signals

theorem turned_of_turns (hi : i < 2 ^ 16) (h : ReflTransGen (Loop.Turn (rxMore i) (rxTurn q)) s t) :
    ∃ n, Turned i n s t := by
  induction h with
  | refl => exact ⟨0, rfl, rfl, (UInt16.add_zero _).symm, rfl, rfl, rfl⟩
  | @tail u v _ hturn ih =>
    obtain ⟨n, hturned⟩ := ih
    obtain ⟨hmore, fuel, hturn⟩ := hturn
    obtain ⟨havail, hpending⟩ := Bool.and_eq_true_iff.mp hmore
    have hlength : u.dev.pendingRx.length ≠ 0 := by simpa using hpending
    have hleft := chainsLeft_succ hi (bne_iff_ne.mp havail)
    have hlast := (rxTurn_lastAvail hturn).1
    have hdev := rxTurn_dev hturn
    have hused : v.dev.lastUsed rxQueue = u.dev.lastUsed rxQueue + 1 := by
      rw [hdev]
      exact Function.update_self rxQueue (u.dev.lastUsed rxQueue + 1) u.dev.lastUsed
    have htail : v.dev.pendingRx.length = u.dev.pendingRx.length - 1 := by
      rw [hdev]
      exact List.length_tail
    have hpend := hturned.pending
    have htotal := hturned.left
    refine ⟨n + 1, ?_, ?_, ?_, ?_, ?_, ?_⟩
    · rw [hlast]
      omega
    · omega
    · rw [hused, hturned.lastUsed, UInt16.ofNat_add, UInt16.add_assoc]
      rfl
    · rw [hdev]
      exact hturned.queues
    · rw [hdev]
      exact hturned.layout
    · rw [hdev]
      exact hturned.signals

theorem turned_of_run (hi : i < 2 ^ 16) (h : Loop.run (rxMore i) (rxTurn q) fuel s = some (.ok t)) :
    Turned i (min (chainsLeft i (s.dev.lastAvail rxQueue)) s.dev.pendingRx.length) s t := by
  obtain ⟨hturns, hdone⟩ := Loop.turns_of_run h
  obtain ⟨n, hturned⟩ := turned_of_turns hi hturns
  have hn : n = min (chainsLeft i (s.dev.lastAvail rxQueue)) s.dev.pendingRx.length := by
    have hleft := hturned.left
    have hpending := hturned.pending
    rcases Bool.and_eq_false_iff.mp hdone with hlast | hempty
    · have hnone : chainsLeft i (t.dev.lastAvail rxQueue) = 0 := by
        have heq : (t.dev.lastAvail rxQueue).toNat = i := by simpa using hlast
        rw [chainsLeft, ← heq, UInt16.ofNat_toNat, UInt16.sub_self]
        rfl
      omega
    · have hzero : t.dev.pendingRx.length = 0 := by simpa using hempty
      omega
  rw [← hn]
  exact hturned

def posted (q : QueueInfo) (mem : ByteStore) (d : VirtioVsock) : Nat :=
  chainsLeft (availIdxOf d.layout q mem) (d.lastAvail rxQueue)

def toPlace (q : QueueInfo) (s : State) : Nat := min (posted q s.mem s.dev) s.dev.readAgentData.pendingRx.length

theorem processRx_turned (hq : s.dev.queueConfigs[rxQueue]? = some q) (h : processRx fuel s = some (.ok t)) :
    t.dev.lastUsed rxQueue = s.dev.lastUsed rxQueue + .ofNat (toPlace q s) ∧
      t.dev.queueConfigs = s.dev.queueConfigs ∧ t.dev.layout = s.dev.layout ∧ t.dev.signals = s.dev.signals := by
  obtain ⟨-, hqueues, hlayout, havail, hused, hsignals⟩ := readAgentData_sameQueues s.dev
  simp only [processRx, hq] at h
  split at h
  · cases h
  · rename_i i hread
    obtain ⟨-, hi⟩ := readAvailIdx_eq_ok.mp hread
    have hlt : i < 2 ^ 16 := hi ▸ availIdxOf_lt
    have hturned : Turned i _ _ t := turned_of_run hlt h
    have hplace : min (chainsLeft i (s.dev.readAgentData.lastAvail rxQueue)) s.dev.readAgentData.pendingRx.length =
        toPlace q s := by
      rw [← hi, hlayout, havail]
      rfl
    have hmoved := hturned.lastUsed
    dsimp only at hmoved
    rw [hplace, hused] at hmoved
    exact ⟨hmoved, hturned.queues.trans hqueues, hturned.layout.trans hlayout, hturned.signals.trans hsignals⟩

/-- The guest is signalled if something went into the used ring, and only then. -/
structure SignalsRightly (s t : State) : Prop where
  placed : t.dev.lastUsed rxQueue ≠ s.dev.lastUsed rxQueue → t.dev.signals = s.dev.signals + 1
  unplaced : t.dev.lastUsed rxQueue = s.dev.lastUsed rxQueue → t.dev.signals = s.dev.signals

theorem chainsLeft_lt (i : Nat) (lastAvail : UInt16) : chainsLeft i lastAvail < 2 ^ 16 := UInt16.toNat_lt _

theorem add_ofNat_eq_self {a : UInt16} {n : Nat} (hn : n < 2 ^ 16) : a + .ofNat n = a ↔ n = 0 := by
  constructor
  · intro h
    have hval := congrArg UInt16.toNat h
    simp only [UInt16.toNat_add, UInt16.toNat_ofNat'] at hval
    have hlt := a.toNat_lt
    omega
  · rintro rfl
    exact UInt16.add_zero a

theorem toNat_add_ofNat_eq_iff {a : UInt16} {n i : Nat} (hn : n < 2 ^ 16) (hi : i < 2 ^ 16) :
    (a + .ofNat n).toNat = i ↔ n = chainsLeft i a := by
  unfold chainsLeft
  simp only [UInt16.toNat_add, UInt16.toNat_sub, UInt16.toNat_ofNat']
  have hlt := a.toNat_lt
  omega

theorem processQueue_signals {s : State} (hactive : (!s.dev.activated || !s.dev.layout.hasMem) = false)
    (h : processQueue fuel s rxQueue = some (.ok t)) :
    ∃ q, s.dev.queueConfigs[rxQueue]? = some q ∧
      t.dev.lastUsed rxQueue = s.dev.lastUsed rxQueue + .ofNat (toPlace q s) ∧
      t.dev.signals = if (t.dev.lastUsed rxQueue).toNat ≠ availIdxOf s.dev.layout q t.mem then s.dev.signals + 1
        else s.dev.signals := by
  have hother : rxQueue ≠ txQueue := by decide
  rw [processQueue, if_neg (Bool.eq_false_iff.mp hactive), if_neg hother, if_pos rfl] at h
  cases hrx : processRx fuel s with
  | none =>
    rw [hrx] at h
    cases h
  | some result =>
    cases result with
    | error fault =>
      rw [hrx] at h
      cases h
    | ok u =>
      rw [hrx] at h
      dsimp only at h
      cases hq : s.dev.queueConfigs[rxQueue]? with
      | none =>
        have hu : u = s := by
          simp only [processRx, hq] at hrx
          cases hrx
          rfl
        rw [hu, hq] at h
        cases h
      | some q =>
        obtain ⟨hmoved, hqueues, hlayout, hsignals⟩ := processRx_turned hq hrx
        rw [hqueues, hq] at h
        dsimp only at h
        cases hread : readAvailIdx u.dev.layout q u.mem with
        | error fault =>
          rw [hread] at h
          cases h
        | ok i =>
          obtain ⟨-, rfl⟩ := readAvailIdx_eq_ok.mp hread
          rw [hread, hlayout] at h
          simp only [Except.map, Option.some.injEq, Except.ok.injEq] at h
          refine ⟨q, rfl, ?_⟩
          by_cases hne : (u.dev.lastUsed rxQueue).toNat ≠ availIdxOf s.dev.layout q u.mem
          · rw [if_pos hne] at h
            subst h
            exact ⟨hmoved, (congrArg Nat.succ hsignals).trans (if_pos hne).symm⟩
          · rw [if_neg hne] at h
            subst h
            exact ⟨hmoved, hsignals.trans (if_neg hne).symm⟩

theorem signalsRightly_iff {s : State} (hsynced : s.dev.Synced) (h : processQueue fuel s rxQueue = some (.ok t)) :
    SignalsRightly s t ↔ (s.dev.activated = true → s.dev.layout.hasMem = true →
      ∀ q, s.dev.queueConfigs[rxQueue]? = some q → (0 < toPlace q s ↔ toPlace q s ≠ posted q t.mem s.dev)) := by
  cases hactive : (!s.dev.activated || !s.dev.layout.hasMem) with
  | true =>
    rw [processQueue, if_pos hactive] at h
    cases h
    refine iff_of_true ⟨fun hmoved => absurd rfl hmoved, fun _ => rfl⟩ fun hon hmem => ?_
    rw [hon, hmem] at hactive
    cases hactive
  | false =>
    obtain ⟨q, hq, hmoved, hsignals⟩ := processQueue_signals hactive h
    obtain ⟨hon, hmem⟩ : s.dev.activated = true ∧ s.dev.layout.hasMem = true := by simpa using hactive
    have hplace : toPlace q s < 2 ^ 16 := (Nat.min_le_left _ _).trans_lt (chainsLeft_lt _ _)
    have hunmoved : t.dev.lastUsed rxQueue = s.dev.lastUsed rxQueue ↔ toPlace q s = 0 := by
      rw [hmoved]
      exact add_ofNat_eq_self hplace
    have hquiet : (t.dev.lastUsed rxQueue).toNat = availIdxOf s.dev.layout q t.mem ↔
        toPlace q s = posted q t.mem s.dev := by
      rw [hmoved, posted, ← hsynced]
      exact toNat_add_ofNat_eq_iff hplace availIdxOf_lt
    simp only [ne_eq, hquiet] at hsignals
    constructor
    · rintro ⟨hplaced, hnone⟩ - - q' hq'
      cases hq.symm.trans hq'
      rw [Ne, hunmoved] at hplaced
      rw [hunmoved] at hnone
      by_cases hall : toPlace q s = posted q t.mem s.dev
      · rw [if_neg (not_not.mpr hall)] at hsignals
        omega
      · rw [if_pos hall] at hsignals
        omega
    · intro hright
      have hright := hright hon hmem q hq
      refine ⟨?_, ?_⟩
      · rw [Ne, hunmoved]
        intro hplaced
        rw [hsignals, if_pos (hright.mp (Nat.pos_of_ne_zero hplaced))]
      · rw [hunmoved]
        intro hnone
        rw [hsignals, if_neg]
        exact fun hmore => absurd (hright.mpr hmore) (by omega)

/-- The device signals if it has not used all that is posted when it looks again. That is right exactly if it places some
packet but not as many as are posted then, or places none and none is posted then. -/
theorem processQueue_signals_iff {guestCid : UInt64} {mem : ByteStore} {as : List Action} {s : Session}
    (hruns : Session.Runs (.start guestCid mem) as s) (h : processQueue fuel s.core rxQueue = some (.ok t)) :
    SignalsRightly s.core t ↔ (s.dev.activated = true → s.dev.layout.hasMem = true →
      ∀ q, s.dev.queueConfigs[rxQueue]? = some q →
        (0 < toPlace q s.core ↔ toPlace q s.core ≠ posted q t.mem s.dev)) :=
  signalsRightly_iff (Session.synced_of_runs hruns) h

theorem signals_right_iff {s : State} {mem : ByteStore} (hkept : posted q mem s.dev = posted q s.mem s.dev) :
    (0 < toPlace q s ↔ toPlace q s ≠ posted q mem s.dev) ↔
      posted q s.mem s.dev = 0 ∨ 0 < s.dev.readAgentData.pendingRx.length ∧
        s.dev.readAgentData.pendingRx.length < posted q s.mem s.dev := by
  rw [hkept, toPlace]
  omega

end Turns

section MissedSignal

def withBuffer (mem : ByteStore) : ByteStore := fun a =>
  if 0x5000 ≤ a ∧ a < 0x5010 then (leBytes 8 0x8000 ++ leBytes 4 64 ++ leBytes 2 vringDescFWrite).getD (a - 0x5000) 0
  else if 0x6002 ≤ a ∧ a < 0x6004 then (leBytes 2 1).getD (a - 0x6002) 0
  else mem a

def oneBuffer : List Action :=
  [.prepareActivate [rxRing, txRing] true 0x10000, .activate, .guest (withPacket 1 (requestHdr 10).toBytes), .take 1,
    .guest (withBuffer (withPacket 1 (requestHdr 10).toBytes))]

theorem oneBuffer_runs : ∃ s t, Session.Runs (.start 3 fun _ => 0) oneBuffer s ∧
    processQueue 2 s.core rxQueue = some (.ok t) ∧ s.dev.lastUsed rxQueue = 0 ∧ t.dev.lastUsed rxQueue = 1 ∧
      s.dev.signals = 0 ∧ t.dev.signals = 0 := by
  have hrun : (Steps.trace Session.next (fun _ _ => True) (.start 3 fun _ => 0) oneBuffer).bind (fun s =>
      ((processQueue 2 s.core rxQueue).bind Except.toOption).map fun t =>
        (s.dev.lastUsed rxQueue, t.dev.lastUsed rxQueue, s.dev.signals, t.dev.signals)) =
          some (0, 1, 0, 0) := by decide
  obtain ⟨s, hs, hrest⟩ := Option.bind_eq_some_iff.mp hrun
  obtain ⟨t, ht, hvalues⟩ := Option.map_eq_some_iff.mp hrest
  obtain ⟨result, hresult, hok⟩ := Option.bind_eq_some_iff.mp ht
  simp only [Prod.mk.injEq] at hvalues
  cases result with
  | error fault => cases hok
  | ok u =>
    cases hok
    exact ⟨s, t, Steps.mono (fun _ _ _ h => h.1) (Steps.of_trace hs), hresult, hvalues⟩

def withBuffers (mem : ByteStore) : ByteStore := fun a =>
  if 0x5000 ≤ a ∧ a < 0x5020 then
    (leBytes 8 0x8000 ++ leBytes 4 64 ++ leBytes 4 vringDescFWrite ++ leBytes 8 0x8100 ++ leBytes 4 64 ++
      leBytes 4 vringDescFWrite).getD (a - 0x5000) 0
  else if 0x6002 ≤ a ∧ a < 0x6008 then (leBytes 2 2 ++ leBytes 2 0 ++ leBytes 2 1).getD (a - 0x6002) 0
  else mem a

def twoBuffers : List Action :=
  [.prepareActivate [rxRing, txRing] true 0x10000, .activate, .guest (withPacket 1 (requestHdr 10).toBytes), .take 1,
    .guest (withBuffers (withPacket 1 (requestHdr 10).toBytes))]

theorem processQueue_signals_iff_two_buffers : ∃ s t, Session.Runs (.start 3 fun _ => 0) twoBuffers s ∧
    processQueue 2 s.core rxQueue = some (.ok t) ∧ t.dev.lastUsed rxQueue = 1 ∧ SignalsRightly s.core t := by
  have hrun : (Steps.trace Session.next (fun _ _ => True) (.start 3 fun _ => 0) twoBuffers).bind (fun s =>
      ((processQueue 2 s.core rxQueue).bind Except.toOption).map fun t =>
        (t.dev.lastUsed rxQueue, s.dev.queueConfigs[rxQueue]?.map fun q => (toPlace q s.core, posted q t.mem s.dev))) =
          some (1, some (1, 2)) := by decide
  obtain ⟨s, hs, hrest⟩ := Option.bind_eq_some_iff.mp hrun
  obtain ⟨t, ht, hvalues⟩ := Option.map_eq_some_iff.mp hrest
  rw [Prod.mk.injEq, Option.map_eq_some_iff] at hvalues
  obtain ⟨hplaced, q, hq, hbuffers⟩ := hvalues
  rw [Prod.mk.injEq] at hbuffers
  obtain ⟨result, hresult, hok⟩ := Option.bind_eq_some_iff.mp ht
  cases result with
  | error fault => cases hok
  | ok u =>
    cases hok
    have hruns : Session.Runs (.start 3 fun _ => 0) twoBuffers s := Steps.mono (fun _ _ _ h => h.1) (Steps.of_trace hs)
    refine ⟨s, t, hruns, hresult, hplaced, (processQueue_signals_iff hruns hresult).mpr ?_⟩
    intro _ _ q' hq'
    obtain rfl := Option.some_inj.mp (hq.symm.trans hq')
    rw [hbuffers.1, hbuffers.2]
    decide

theorem processQueue_signals_fails : ¬ ∀ (guestCid : UInt64) (mem : ByteStore) (as : List Action) (s : Session)
    (fuel : Nat) (t : State), Session.Runs (.start guestCid mem) as s →
      processQueue fuel s.core rxQueue = some (.ok t) → SignalsRightly s.core t := by
  intro hall
  obtain ⟨s, t, hruns, h, hbefore, hafter, hsignals, hsignals'⟩ := oneBuffer_runs
  have hmoved : t.dev.lastUsed rxQueue ≠ s.core.dev.lastUsed rxQueue := by
    have hcore : s.core.dev.lastUsed rxQueue = 0 := hbefore
    rw [hafter, hcore]
    decide
  have hsignalled := (hall 3 _ _ s 2 t hruns h).placed hmoved
  have hcore : s.core.dev.signals = 0 := hsignals
  omega

end MissedSignal

end CloneVmm.Virtio.Vsock
