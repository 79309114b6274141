import Mathlib.Tactic.Common

namespace CloneVmm.Vmm.ExecPipes

inductive Pipe
  | stdout
  | stderr
  deriving DecidableEq

structure Command where
  writes : List (Pipe × UInt8)
  exitCode : Int32

inductive Child
  | running (rest : Command)
  | exited (code : Int32)
  | killed

structure Output where
  code : Option Int32
  stdout : List UInt8
  stderr : List UInt8

/-- An error of `std::io`; starting a command can fail as well. -/
inductive ExecError
  | timedOut
  | notStarted (text : String)

inductive AgentPc
  | sleeping (wakeAt : Nat)
  | done (result : Except ExecError Output)

/-- The clock counts milliseconds from the start of the command. -/
structure State where
  child : Child
  pipes : Pipe → List UInt8
  agent : AgentPc
  clock : Nat

inductive Turn
  | child
  | agent
  | tick
  deriving DecidableEq

def maxOutput : Nat := 65536

def timeoutMs : Nat := 300 * 1000

def pollMs : Nat := 10

def output (writes : List (Pipe × UInt8)) (p : Pipe) : List UInt8 :=
  (writes.filter fun w => w.1 = p).map Prod.snd

def truncated (code : Option Int32) (stdout stderr : List UInt8) : Output :=
  ⟨code, stdout.take maxOutput, stderr.take maxOutput⟩

namespace State

variable (capacity : Nat)

def start (command : Command) : State := ⟨.running command, fun _ => [], .sleeping 0, 0⟩

def write (s : State) (p : Pipe) (b : UInt8) (rest : Command) : State :=
  { s with child := .running rest, pipes := fun q => if q = p then s.pipes q ++ [b] else s.pipes q }

def childTurn (s : State) : State :=
  match s.child with
  | .running ⟨[], code⟩ => { s with child := .exited code }
  | .running ⟨(p, b) :: writes, code⟩ => if (s.pipes p).length < capacity then s.write p b ⟨writes, code⟩ else s
  | _ => s

def poll (s : State) : State :=
  match s.child with
  | .exited code =>
    { s with pipes := fun _ => [], agent := .done (.ok (truncated (some code) (s.pipes .stdout) (s.pipes .stderr))) }
  | .running _ =>
    if timeoutMs < s.clock then { s with child := .killed, agent := .done (.error .timedOut) }
    else { s with agent := .sleeping (s.clock + pollMs) }
  | .killed => s

def agentTurn (s : State) : State :=
  match s.agent with
  | .sleeping wakeAt => if s.clock < wakeAt then s else s.poll
  | .done _ => s

def turn (s : State) : Turn → State
  | .child => s.childTurn capacity
  | .agent => s.agentTurn
  | .tick => { s with clock := s.clock + 1 }

def run (s : State) (turns : List Turn) : State := turns.foldl (turn capacity) s

structure Deadlocked (s : State) (wakeAt : Nat) (rest : Command) (p : Pipe) (b : UInt8) : Prop where
  agent : s.agent = .sleeping wakeAt
  child : s.child = .running rest
  next : rest.writes.head? = some (p, b)
  full : capacity ≤ (s.pipes p).length

end State

def Command.output (command : Command) (p : Pipe) : List UInt8 := ExecPipes.output command.writes p

def Command.result (command : Command) : Output :=
  truncated (some command.exitCode) (command.output .stdout) (command.output .stderr)

structure NeverDeadlocks (capacity : Nat) (command : Command) : Prop where
  free : ∀ turns wakeAt rest p b, ¬ ((State.start command).run capacity turns).Deadlocked capacity wakeAt rest p b
  result : ∀ turns result, ((State.start command).run capacity turns).agent = .done result →
    ((State.start command).run capacity turns).clock ≤ timeoutMs → result = .ok command.result
  finishes : ∀ before after, ((State.start command).run capacity before).clock ≤ timeoutMs →
    command.writes.length < before.count .child → pollMs ≤ after.count .tick →
    ((State.start command).run capacity (before ++ after ++ [.agent])).agent = .done (.ok command.result)

section Runs

variable {capacity : Nat} {command : Command} {s : State}

theorem output_cons (p q : Pipe) (b : UInt8) (writes : List (Pipe × UInt8)) :
    output ((p, b) :: writes) q = (if q = p then [b] else []) ++ output writes q := by
  unfold output
  by_cases h : q = p
  · subst h
    simp
  · have hne : p ≠ q := fun heq => h heq.symm
    simp [h, hne]

inductive Inv (capacity : Nat) (command : Command) : State → Prop
  | running {rest : Command} {pipes : Pipe → List UInt8} {wakeAt clock : Nat}
      (code : rest.exitCode = command.exitCode) (bytes : ∀ p, pipes p ++ rest.output p = command.output p)
      (room : ∀ p, (pipes p).length ≤ capacity) (wake : wakeAt ≤ clock + pollMs) :
      Inv capacity command ⟨.running rest, pipes, .sleeping wakeAt, clock⟩
  | exited {pipes : Pipe → List UInt8} {wakeAt clock : Nat} (bytes : ∀ p, pipes p = command.output p)
      (room : ∀ p, (pipes p).length ≤ capacity) (wake : wakeAt ≤ clock + pollMs) :
      Inv capacity command ⟨.exited command.exitCode, pipes, .sleeping wakeAt, clock⟩
  | finished {clock : Nat} (fits : ∀ p, (command.output p).length ≤ capacity) :
      Inv capacity command ⟨.exited command.exitCode, fun _ => [], .done (.ok command.result), clock⟩
  | timedOut {pipes : Pipe → List UInt8} {clock : Nat} (late : timeoutMs < clock) :
      Inv capacity command ⟨.killed, pipes, .done (.error .timedOut), clock⟩

theorem inv_start (capacity : Nat) (command : Command) : Inv capacity command (.start command) :=
  .running rfl (fun _ => rfl) (fun _ => Nat.zero_le _) (Nat.zero_le _)

theorem Inv.childTurn (h : Inv capacity command s) : Inv capacity command (s.childTurn capacity) := by
  cases h with
  | @running rest pipes wakeAt clock code bytes room wake =>
    obtain ⟨writes, exitCode⟩ := rest
    cases writes with
    | nil =>
      obtain rfl : exitCode = command.exitCode := code
      exact .exited (fun p => (List.append_nil _).symm.trans (bytes p)) room wake
    | cons w writes =>
      obtain ⟨p, b⟩ := w
      change Inv capacity command (if (pipes p).length < capacity then _ else _)
      split
      · rename_i hroom
        refine .running code (fun q => ?_) (fun q => ?_) wake
        · rw [← bytes q, Command.output, Command.output, output_cons]
          by_cases hq : q = p
          · rw [if_pos hq, if_pos hq, List.append_assoc]
          · rw [if_neg hq, if_neg hq, List.nil_append]
        · dsimp only
          by_cases hq : q = p
          · subst hq
            rw [if_pos rfl, List.length_append]
            exact hroom
          · rw [if_neg hq]
            exact room q
      · exact .running code bytes room wake
  | exited bytes room wake => exact .exited bytes room wake
  | finished fits => exact .finished fits
  | timedOut late => exact .timedOut late

theorem Inv.agentTurn (h : Inv capacity command s) : Inv capacity command s.agentTurn := by
  cases h with
  | @running rest pipes wakeAt clock code bytes room wake =>
    change Inv capacity command (if clock < wakeAt then _ else _)
    split
    · exact .running code bytes room wake
    · change Inv capacity command (if timeoutMs < clock then _ else _)
      split
      · rename_i hlate
        exact .timedOut hlate
      · exact .running code bytes room (Nat.le_refl _)
  | @exited pipes wakeAt clock bytes room wake =>
    change Inv capacity command (if clock < wakeAt then _ else _)
    split
    · exact .exited bytes room wake
    · have hfits : ∀ p, (command.output p).length ≤ capacity := fun p => bytes p ▸ room p
      obtain rfl : pipes = command.output := funext bytes
      exact .finished hfits
  | finished fits => exact .finished fits
  | timedOut late => exact .timedOut late

theorem Inv.turn (h : Inv capacity command s) (t : Turn) : Inv capacity command (s.turn capacity t) := by
  cases t with
  | child => exact h.childTurn
  | agent => exact h.agentTurn
  | tick =>
    cases h with
    | running code bytes room wake => exact .running code bytes room (by dsimp only; omega)
    | exited bytes room wake => exact .exited bytes room (by dsimp only; omega)
    | finished fits => exact .finished fits
    | timedOut late => exact .timedOut (by dsimp only; omega)

theorem Inv.run (h : Inv capacity command s) (turns : List Turn) : Inv capacity command (s.run capacity turns) := by
  induction turns generalizing s with
  | nil => exact h
  | cons t turns ih => exact ih (h.turn t)

theorem inv_run (capacity : Nat) (command : Command) (turns : List Turn) :
    Inv capacity command ((State.start command).run capacity turns) := (inv_start capacity command).run turns

theorem Inv.free (h : Inv capacity command s) (hfits : ∀ p, (command.output p).length ≤ capacity) {wakeAt : Nat}
    {rest : Command} {p : Pipe} {b : UInt8} : ¬ s.Deadlocked capacity wakeAt rest p b := by
  rintro ⟨hagent, hchild, hnext, hfull⟩
  cases h with
  | @running rest' pipes _ clock code bytes room wake =>
    obtain rfl : rest' = rest := Child.running.inj hchild
    obtain ⟨writes, exitCode⟩ := rest'
    obtain ⟨writes, rfl⟩ : ∃ writes', writes = (p, b) :: writes' := List.head?_eq_some_iff.mp hnext
    have hlen := congrArg List.length (bytes p)
    rw [Command.output, output_cons, if_pos rfl, List.length_append, List.length_append, List.length_singleton] at hlen
    have hle := hfits p
    dsimp only at hfull
    omega
  | exited bytes room wake => cases hchild
  | finished fits => cases hchild
  | timedOut late => cases hchild

theorem run_append (s : State) (before after : List Turn) :
    s.run capacity (before ++ after) = (s.run capacity before).run capacity after := List.foldl_append

def Child.left : Child → Nat
  | .running rest => rest.writes.length + 1
  | _ => 0

theorem left_childTurn (h : Inv capacity command s) (hfits : ∀ p, (command.output p).length ≤ capacity) :
    (s.childTurn capacity).child.left ≤ s.child.left - 1 := by
  cases h with
  | @running rest pipes wakeAt clock code bytes room wake =>
    obtain ⟨writes, exitCode⟩ := rest
    cases writes with
    | nil => exact Nat.zero_le _
    | cons w writes =>
      obtain ⟨p, b⟩ := w
      have hroom : (pipes p).length < capacity := by
        by_contra hfull
        exact (Inv.running code bytes room wake).free hfits ⟨rfl, rfl, rfl, Nat.not_lt.mp hfull⟩
      change (if (pipes p).length < capacity then _ else _ : State).child.left ≤ _
      rw [if_pos hroom]
      exact Nat.le_refl _
  | exited bytes room wake => exact Nat.zero_le _
  | finished fits => exact Nat.zero_le _
  | timedOut late => exact Nat.zero_le _

theorem left_agentTurn (s : State) : s.agentTurn.child.left ≤ s.child.left := by
  unfold State.agentTurn State.poll
  repeat' split
  all_goals first | exact Nat.le_refl _ | exact Nat.zero_le _

theorem left_run (h : Inv capacity command s) (hfits : ∀ p, (command.output p).length ≤ capacity) (turns : List Turn) :
    (s.run capacity turns).child.left ≤ s.child.left - turns.count .child := by
  induction turns generalizing s with
  | nil => exact Nat.le_refl _
  | cons t turns ih =>
    have hrest := ih (h.turn t)
    change ((s.turn capacity t).run capacity turns).child.left ≤ _
    rw [List.count_cons]
    cases t with
    | child =>
      have hturn := left_childTurn h hfits
      change _ ≤ s.child.left - (_ + 1)
      change _ ≤ (s.childTurn capacity).child.left - _ at hrest
      omega
    | agent =>
      have hturn := left_agentTurn s
      change _ ≤ s.child.left - (_ + 0)
      change _ ≤ s.agentTurn.child.left - _ at hrest
      omega
    | tick => exact hrest

theorem run_done {result : Except ExecError Output} (h : s.agent = .done result) (turns : List Turn) :
    (s.run capacity turns).agent = .done result := by
  have hturn : ∀ s : State, s.agent = .done result → ∀ t, (s.turn capacity t).agent = .done result := by
    intro s hs t
    cases t with
    | child =>
      change (s.childTurn capacity).agent = _
      unfold State.childTurn
      repeat' split
      all_goals exact hs
    | agent =>
      change s.agentTurn.agent = _
      rw [State.agentTurn, hs]
      exact hs
    | tick => exact hs
  induction turns generalizing s with
  | nil => exact h
  | cons t turns ih => exact ih (hturn s h t)

theorem run_exited {code : Int32} {pipes : Pipe → List UInt8} {wakeAt clock : Nat} (turns : List Turn) :
    (State.run capacity ⟨.exited code, pipes, .sleeping wakeAt, clock⟩ turns).agent =
        .done (.ok (truncated (some code) (pipes .stdout) (pipes .stderr))) ∨
      State.run capacity ⟨.exited code, pipes, .sleeping wakeAt, clock⟩ turns =
        ⟨.exited code, pipes, .sleeping wakeAt, clock + turns.count .tick⟩ := by
  induction turns generalizing clock with
  | nil => exact .inr rfl
  | cons t turns ih =>
    rw [List.count_cons]
    cases t with
    | child => exact ih
    | agent =>
      change (State.run capacity (if clock < wakeAt then _ else _) turns).agent = _ ∨
        State.run capacity (if clock < wakeAt then _ else _) turns = _
      split
      · exact ih
      · exact .inl (run_done rfl turns)
    | tick =>
      have hclock : clock + (turns.count .tick + 1) = clock + 1 + turns.count .tick := by omega
      change _ ∨ _ = State.mk _ _ _ (clock + (turns.count .tick + 1))
      rw [hclock]
      exact ih

theorem finishes_of_fits (hfits : ∀ p, (command.output p).length ≤ capacity) {before after : List Turn}
    (hclock : ((State.start command).run capacity before).clock ≤ timeoutMs)
    (hchild : command.writes.length < before.count .child) (hafter : pollMs ≤ after.count .tick) :
    ((State.start command).run capacity (before ++ after ++ [.agent])).agent = .done (.ok command.result) := by
  have hinv := inv_run capacity command before
  have hleft := left_run (inv_start capacity command) hfits before
  have hstart : (State.start command).child.left = command.writes.length + 1 := rfl
  rw [hstart] at hleft
  rw [List.append_assoc, run_append]
  generalize (State.start command).run capacity before = t at hclock hinv hleft
  cases hinv with
  | @running rest pipes wakeAt clock code bytes room wake =>
    change rest.writes.length + 1 ≤ _ at hleft
    omega
  | @exited pipes wakeAt clock bytes room wake =>
    obtain rfl : pipes = command.output := funext bytes
    rw [run_append]
    rcases run_exited after with hdone | hsame
    · exact run_done hdone _
    · rw [hsame]
      change (if clock + after.count .tick < wakeAt then _ else _ : State).agent = _
      rw [if_neg (by omega)]
      rfl
  | finished fits => exact run_done rfl _
  | timedOut late =>
    dsimp only at hclock
    omega

theorem written_of_free {writes : List (Pipe × UInt8)} {code : Int32} {pipes : Pipe → List UInt8} {wakeAt clock : Nat}
    (hfree : ∀ turns wakeAt' rest p b, ¬ (State.run capacity ⟨.running ⟨writes, code⟩, pipes, .sleeping wakeAt, clock⟩
      turns).Deadlocked capacity wakeAt' rest p b) :
    ∃ turns pipes', State.run capacity ⟨.running ⟨writes, code⟩, pipes, .sleeping wakeAt, clock⟩ turns =
      ⟨.running ⟨[], code⟩, pipes', .sleeping wakeAt, clock⟩ := by
  -- the agent sleeps while the child takes turn after turn
  induction writes generalizing pipes with
  | nil => exact ⟨[], pipes, rfl⟩
  | cons w writes ih =>
    obtain ⟨p, b⟩ := w
    have hroom : (pipes p).length < capacity := by
      by_contra hfull
      exact hfree [] wakeAt _ p b ⟨rfl, rfl, rfl, Nat.not_lt.mp hfull⟩
    have hturn : State.turn capacity ⟨.running ⟨(p, b) :: writes, code⟩, pipes, .sleeping wakeAt, clock⟩ .child =
        ⟨.running ⟨writes, code⟩, fun q => if q = p then pipes q ++ [b] else pipes q, .sleeping wakeAt, clock⟩ :=
      if_pos hroom
    obtain ⟨turns, pipes', hrun⟩ := @ih (fun q => if q = p then pipes q ++ [b] else pipes q) (by
      intro turns
      rw [← hturn]
      exact hfree (.child :: turns))
    refine ⟨.child :: turns, pipes', ?_⟩
    change State.run capacity (State.turn capacity _ .child) turns = _
    rw [hturn, hrun]

theorem fits_of_free (hfree : ∀ turns wakeAt rest p b,
    ¬ ((State.start command).run capacity turns).Deadlocked capacity wakeAt rest p b) (p : Pipe) :
    (command.output p).length ≤ capacity := by
  obtain ⟨turns, pipes, hrun⟩ := written_of_free hfree
  have hinv := inv_run capacity command turns
  rw [State.start, hrun] at hinv
  cases hinv with
  | running code bytes room wake =>
    rw [← bytes p, Command.output, List.length_append]
    exact room p

theorem neverDeadlocks_iff (capacity : Nat) (command : Command) :
    NeverDeadlocks capacity command ↔ ∀ p, (command.output p).length ≤ capacity := by
  constructor
  · intro h
    exact fits_of_free h.free
  · intro hfits
    refine ⟨fun turns _ _ _ _ => (inv_run capacity command turns).free hfits, ?_,
      fun _ _ hclock hchild hafter => finishes_of_fits hfits hclock hchild hafter⟩
    intro turns result hdone hclock
    have hinv := inv_run capacity command turns
    generalize (State.start command).run capacity turns = t at hdone hclock hinv
    cases hinv with
    | running code bytes room wake => cases hdone
    | exited bytes room wake => cases hdone
    | finished fits => exact (AgentPc.done.inj hdone).symm
    | timedOut late =>
      dsimp only at hclock
      omega

theorem timedOut_of_overflow {p : Pipe} (hover : capacity < (command.output p).length) {turns : List Turn}
    {result : Except ExecError Output} (hdone : ((State.start command).run capacity turns).agent = .done result) :
    result = .error .timedOut := by
  have hinv := inv_run capacity command turns
  generalize (State.start command).run capacity turns = t at hdone hinv
  cases hinv with
  | running code bytes room wake => cases hdone
  | exited bytes room wake => cases hdone
  | finished fits => exact absurd (fits p) (Nat.not_le.mpr hover)
  | timedOut late => exact (AgentPc.done.inj hdone).symm

end Runs

def oneByteMore : Command := ⟨List.replicate 65537 (.stdout, 0), 0⟩

theorem neverDeadlocks_fails : ¬ NeverDeadlocks 65536 oneByteMore := by
  intro h
  have hfits := fits_of_free h.free .stdout
  rw [oneByteMore, Command.output, output, List.filter_replicate_of_pos rfl, List.map_replicate,
    List.length_replicate] at hfits
  omega

end CloneVmm.Vmm.ExecPipes
