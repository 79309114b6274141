import CloneVmm.Memory.Balloon

namespace CloneVmm.Memory

open CloneVmm.Lib

structure Answer where
  report : Report
  action : BalloonAction
  deriving DecidableEq

namespace BalloonAction

def inflated : BalloonAction → Nat
  | inflate pages => pages
  | _ => 0

def deflated : BalloonAction → Nat
  | deflate pages => pages
  | _ => 0

end BalloonAction

namespace BalloonPolicy

def Answers (p : BalloonPolicy) (a : Answer) (q : BalloonPolicy) : Prop :=
  p.reportActivityWithMem a.report = (q, a.action)

instance (p : BalloonPolicy) (a : Answer) (q : BalloonPolicy) : Decidable (Answers p a q) :=
  inferInstanceAs (Decidable (_ = _))

def Runs (totalPages floorMb created : Nat) (answers : List Answer) (p : BalloonPolicy) : Prop :=
  Steps Answers (new totalPages floorMb created) answers p

def Ordered (created : Nat) (answers : List Answer) : Prop :=
  (∀ a ∈ answers, created ≤ a.report.now) ∧ (answers.map fun a => a.report.now).Pairwise (· ≤ ·)

instance (created : Nat) (answers : List Answer) : Decidable (Ordered created answers) :=
  inferInstanceAs (Decidable (_ ∧ _))

inductive Outcome (p : BalloonPolicy) (r : Report) (q : BalloonPolicy) : BalloonAction → Prop
  | hold (hpages : q.balloonPages = p.balloonPages) (hempty : r.active = true → p.balloonPages = 0)
      (hdeflate : q.lastDeflate = p.lastDeflate) : Outcome p r q .hold
  | deflate (hactive : r.active = true) (hpages : q.balloonPages = 0) (hdeflate : q.lastDeflate = r.now) :
      Outcome p r q (.deflate p.balloonPages)
  | inflate {pages : Nat} (hidle : r.active = false) (hmem : r.memTight = false)
      (hcool : secs 60 ≤ r.now - p.lastDeflate) (hpages : q.balloonPages = p.balloonPages + pages)
      (hbound : q.balloonPages ≤ p.maxReclaimable) (hdeflate : q.lastDeflate = p.lastDeflate) :
      Outcome p r q (.inflate pages)

variable {p q : BalloonPolicy} {a : Answer} {r : Report}

theorem le_cooldownDuration (p : BalloonPolicy) : secs 60 ≤ p.cooldownDuration := by
  unfold cooldownDuration
  split
  · decide
  · exact Nat.le_refl _

theorem targetPages_le {idleDuration target : Nat} (h : p.targetPages idleDuration = some target) :
    target ≤ p.maxReclaimable := by
  unfold targetPages at h
  split_ifs at h
  · exact (Option.some.inj h).ge
  · obtain rfl := Option.some.inj h
    exact Nat.div_le_self _ _
  · obtain rfl := Option.some.inj h
    exact Nat.div_le_self _ _

theorem whenActive_outcome (hactive : r.active = true) :
    Outcome p r (p.whenActive r.now).1 (p.whenActive r.now).2 := by
  unfold whenActive
  dsimp only
  by_cases hpages : p.balloonPages > 0
  · rw [if_pos hpages]
    exact .deflate hactive rfl rfl
  · rw [if_neg hpages]
    exact .hold rfl (fun _ => Nat.eq_zero_of_not_pos hpages) rfl

theorem whenIdle_outcome (hidle : r.active = false) : Outcome p r (p.whenIdle r).1 (p.whenIdle r).2 := by
  have hactive : r.active = true → p.balloonPages = 0 := fun h => absurd (hidle.symm.trans h) (by decide)
  unfold whenIdle
  by_cases hcool : r.now - p.lastDeflate < p.cooldownDuration
  · rw [if_pos hcool]
    exact .hold rfl hactive rfl
  rw [if_neg hcool]
  cases hmem : r.memTight with
  | true =>
    rw [if_pos rfl]
    exact .hold rfl hactive rfl
  | false =>
    rw [if_neg Bool.false_ne_true]
    cases htarget : p.targetPages (r.now - p.lastActive) with
    | none => exact .hold rfl hactive rfl
    | some target =>
      dsimp only
      by_cases hmore : target > p.balloonPages
      · rw [if_pos hmore]
        refine .inflate hidle hmem ?_ ?_ (targetPages_le htarget) rfl
        · exact p.le_cooldownDuration.trans (Nat.le_of_not_lt hcool)
        · exact (Nat.add_sub_of_le (Nat.le_of_lt hmore)).symm
      · rw [if_neg hmore]
        exact .hold rfl hactive rfl

theorem Outcome.observe {action : BalloonAction} (h : Outcome (p.observe r) r q action) : Outcome p r q action := by
  cases h with
  | hold hpages hempty hdeflate => exact .hold hpages hempty hdeflate
  | deflate hactive hpages hdeflate => exact .deflate hactive hpages hdeflate
  | inflate hidle hmem hcool hpages hbound hdeflate => exact .inflate hidle hmem hcool hpages hbound hdeflate

theorem reportActivityWithMem_eq (p : BalloonPolicy) (r : Report) : p.reportActivityWithMem r =
    if r.active then (p.observe r).whenActive r.now else (p.observe r).whenIdle r := by
  have hstate : (p.observe r).state = if r.active then .active else .idle := rfl
  unfold reportActivityWithMem
  dsimp only
  rw [hstate]
  cases r.active with
  | true => rfl
  | false => rfl

theorem Answers.outcome (h : Answers p a q) : Outcome p a.report q a.action := by
  have hout : Outcome p a.report (p.reportActivityWithMem a.report).1 (p.reportActivityWithMem a.report).2 := by
    rw [reportActivityWithMem_eq]
    cases hactive : a.report.active with
    | true => exact (whenActive_outcome hactive).observe
    | false => exact (whenIdle_outcome hactive).observe
  rwa [h] at hout

structure Framed (p q : BalloonPolicy) : Prop where
  maxReclaimable : q.maxReclaimable = p.maxReclaimable
  transitions : q.transitions = p.transitions
  state : q.state = p.state

theorem whenActive_framed (p : BalloonPolicy) (now : Nat) : Framed p (p.whenActive now).1 := by
  unfold whenActive
  dsimp only
  split
  · exact ⟨rfl, rfl, rfl⟩
  · exact ⟨rfl, rfl, rfl⟩

theorem whenIdle_framed (p : BalloonPolicy) (r : Report) : Framed p (p.whenIdle r).1 := by
  unfold whenIdle
  split
  · exact ⟨rfl, rfl, rfl⟩
  split
  · exact ⟨rfl, rfl, rfl⟩
  split
  · exact ⟨rfl, rfl, rfl⟩
  split
  · exact ⟨rfl, rfl, rfl⟩
  · exact ⟨rfl, rfl, rfl⟩

theorem Answers.framed (h : Answers p a q) : Framed (p.observe a.report) q := by
  have hout : Framed (p.observe a.report) (p.reportActivityWithMem a.report).1 := by
    rw [reportActivityWithMem_eq]
    split
    · exact whenActive_framed _ _
    · exact whenIdle_framed _ _
  rwa [h] at hout

def inflatedBy (answers : List Answer) : Nat := (answers.map fun a => a.action.inflated).sum

def deflatedBy (answers : List Answer) : Nat := (answers.map fun a => a.action.deflated).sum

structure Accounted (totalPages floorMb : Nat) (answers : List Answer) (p : BalloonPolicy) : Prop where
  reclaimable : p.maxReclaimable = totalPages - floorMb * 1024 * 1024 / 4096
  bound : p.balloonPages ≤ totalPages - floorMb * 1024 * 1024 / 4096
  balance : p.balloonPages + deflatedBy answers = inflatedBy answers
  cooling : ∀ a ∈ answers, a.action.isDeflate = true → a.report.now ≤ p.lastDeflate

structure RunRight (totalPages floorMb : Nat) (answers : List Answer) (p : BalloonPolicy) (a : Answer)
    (q : BalloonPolicy) : Prop where
  bound : q.balloonPages ≤ totalPages - floorMb * 1024 * 1024 / 4096
  balance : (q.balloonPages : Int) = inflatedBy (answers ++ [a]) - deflatedBy (answers ++ [a])
  active : a.report.active = true → q.balloonPages = 0
  idle : a.report.active = false → p.balloonPages ≤ q.balloonPages
  cooled : ∀ pages, a.action = .inflate pages → ∀ b ∈ answers, b.action.isDeflate = true →
    b.report.now + secs 60 ≤ a.report.now
  available : ∀ pages, a.action = .inflate pages → a.report.memTight = false

section Runs

variable {totalPages floorMb created : Nat} {answers : List Answer}

theorem accounted_new (totalPages floorMb created : Nat) :
    Accounted totalPages floorMb [] (new totalPages floorMb created) where
  reclaimable := rfl
  bound := Nat.zero_le _
  balance := rfl
  cooling := List.forall_mem_nil _

theorem inflatedBy_concat (answers : List Answer) (a : Answer) :
    inflatedBy (answers ++ [a]) = inflatedBy answers + a.action.inflated := by
  simp [inflatedBy]

theorem deflatedBy_concat (answers : List Answer) (a : Answer) :
    deflatedBy (answers ++ [a]) = deflatedBy answers + a.action.deflated := by
  simp [deflatedBy]

theorem Accounted.next (h : Accounted totalPages floorMb answers p) (hanswers : Answers p a q)
    (hlater : ∀ b ∈ answers, b.report.now ≤ a.report.now) : Accounted totalPages floorMb (answers ++ [a]) q := by
  have hreclaimable : q.maxReclaimable = p.maxReclaimable := hanswers.framed.maxReclaimable
  obtain ⟨r, action⟩ := a
  have hout := hanswers.outcome
  dsimp only at hout hlater
  have hbalance := h.balance
  refine ⟨hreclaimable.trans h.reclaimable, ?_, ?_, ?_⟩
  · cases hout with
    | hold hpages => exact hpages.trans_le h.bound
    | deflate _ hpages => exact hpages.trans_le (Nat.zero_le _)
    | inflate _ _ _ _ hbound => exact hbound.trans h.reclaimable.le
  · rw [inflatedBy_concat, deflatedBy_concat]
    cases hout with
    | hold hpages =>
      simp only [BalloonAction.inflated, BalloonAction.deflated]
      omega
    | deflate _ hpages =>
      simp only [BalloonAction.inflated, BalloonAction.deflated]
      omega
    | inflate _ _ _ hpages =>
      simp only [BalloonAction.inflated, BalloonAction.deflated]
      omega
  · intro b hmem hdeflates
    rcases List.mem_append.mp hmem with hb | hb
    · cases hout with
      | hold _ _ hdeflate => exact (h.cooling b hb hdeflates).trans hdeflate.ge
      | deflate _ _ hdeflate => exact (hlater b hb).trans hdeflate.ge
      | inflate _ _ _ _ _ hdeflate => exact (h.cooling b hb hdeflates).trans hdeflate.ge
    · obtain rfl := List.mem_singleton.mp hb
      cases hout with
      | hold => cases hdeflates
      | deflate _ _ hdeflate => exact hdeflate.ge
      | inflate => cases hdeflates

theorem Ordered.of_concat (h : Ordered created (answers ++ [a])) :
    Ordered created answers ∧ ∀ b ∈ answers, b.report.now ≤ a.report.now := by
  obtain ⟨hcreated, hpairs⟩ := h
  rw [List.map_append, List.pairwise_append] at hpairs
  refine ⟨⟨fun b hb => hcreated b (List.mem_append_left _ hb), hpairs.1⟩, fun b hb => ?_⟩
  exact hpairs.2.2 _ (List.mem_map_of_mem hb) _ (List.mem_singleton_self _)

theorem Runs.accounted (hrun : Runs totalPages floorMb created answers p) (hordered : Ordered created answers) :
    Accounted totalPages floorMb answers p := by
  refine Steps.invariant_history (P := fun answers p => Ordered created answers → _) ?_ hrun
    (fun _ => accounted_new totalPages floorMb created) hordered
  intro answers p a q hanswers h hordered
  obtain ⟨hearlier, hlater⟩ := hordered.of_concat
  exact (h hearlier).next hanswers hlater

end Runs

/-- For every run, and every answer that it can go on with. -/
theorem policy_runs_right {totalPages floorMb created : Nat} {answers : List Answer}
    (hrun : Runs totalPages floorMb created answers p) (hanswers : Answers p a q)
    (hordered : Ordered created (answers ++ [a])) : RunRight totalPages floorMb answers p a q := by
  obtain ⟨hearlier, hlater⟩ := hordered.of_concat
  have hbefore := hrun.accounted hearlier
  have hafter := hbefore.next hanswers hlater
  have hbalance := hafter.balance
  obtain ⟨r, action⟩ := a
  have hout := hanswers.outcome
  dsimp only at hout
  refine ⟨hafter.bound, by omega, ?_, ?_, ?_, ?_⟩
  · intro hactive
    cases hout with
    | hold hpages hempty => exact hpages.trans (hempty hactive)
    | deflate _ hpages => exact hpages
    | inflate hidle => exact absurd (hidle.symm.trans hactive) (by decide)
  · intro hidle
    cases hout with
    | hold hpages => exact hpages.ge
    | deflate hactive => exact absurd (hidle.symm.trans hactive) (by decide)
    | inflate _ _ _ hpages =>
      rw [hpages]
      exact Nat.le_add_right _ _
  · rintro pages rfl b hb hdeflates
    cases hout with
    | inflate _ _ hcool =>
      have hlast := hbefore.cooling b hb hdeflates
      have hpos : 0 < secs 60 := by decide
      dsimp only
      omega
  · rintro pages rfl
    cases hout with
    | inflate _ hmem => exact hmem

def twiceIdle : List Answer := [⟨⟨secs 61, false, false⟩, .inflate 32768⟩, ⟨⟨secs 70, true, false⟩, .deflate 32768⟩]

theorem policy_runs_right_twice_idle :
    ∃ p q, Runs 262144 512 0 twiceIdle p ∧
      RunRight 262144 512 twiceIdle p ⟨⟨secs 251, false, false⟩, .inflate 65536⟩ q := by
  have hrun : Runs 262144 512 0 twiceIdle ⟨0, 131072, 131072, secs 70, secs 70, [secs 61, secs 70], .active⟩ :=
    .cons (by decide : Answers _ _ ⟨32768, 131072, 131072, 0, 0, [secs 61], .idle⟩) (.cons (by decide) (.nil _))
  have hanswers : Answers ⟨0, 131072, 131072, secs 70, secs 70, [secs 61, secs 70], .active⟩
      ⟨⟨secs 251, false, false⟩, .inflate 65536⟩
      ⟨65536, 131072, 131072, secs 70, secs 70, [secs 61, secs 70, secs 251], .idle⟩ := by decide
  exact ⟨_, _, hrun, policy_runs_right hrun hanswers (by decide)⟩

def stateOf (r : Report) : GuestState := if r.active then .active else .idle

def switches (state : GuestState) : List Report → List Nat
  | [] => []
  | r :: rs => if stateOf r ≠ state then r.now :: switches (stateOf r) rs else switches (stateOf r) rs

def window (now : Nat) (times : List Nat) : List Nat := times.filter fun t => decide (now < t + secs 300)

def burstCooldown (now : Nat) (times : List Nat) : Nat := if (window now times).length ≥ 3 then secs 180 else secs 60

def Fresh (now : Nat) (times : List Nat) : Prop :=
  ∀ t, times.reverse[2]? = some t → times.getLastD 0 < t + secs 300 → now < t + secs 300

section Cooldown

variable {times : List Nat} {now : Nat} {reports : List Report} {state : GuestState}

theorem switches_concat (state : GuestState) (reports : List Report) (r : Report) :
    switches state (reports ++ [r]) = switches state reports ++
      if stateOf r ≠ reports.foldl (fun _ r => stateOf r) state then [r.now] else [] := by
  induction reports generalizing state with
  | nil =>
    rw [List.nil_append, switches, switches, List.nil_append, List.foldl_nil]
    rfl
  | cons first reports ih =>
    rw [List.cons_append, switches, switches, List.foldl_cons, ih]
    split
    · rw [List.cons_append]
    · rfl

theorem switches_sublist (state : GuestState) (reports : List Report) :
    (switches state reports).Sublist (reports.map Report.now) := by
  induction reports generalizing state with
  | nil => exact .slnil
  | cons r reports ih =>
    rw [switches, List.map_cons]
    split
    · exact (ih _).cons_cons _
    · exact (ih _).cons _

theorem window_append (now : Nat) (times times' : List Nat) :
    window now (times ++ times') = window now times ++ window now times' := List.filter_append ..

theorem window_window {last : Nat} (h : last ≤ now) : window now (window last times) = window now times := by
  rw [window, window, List.filter_filter]
  refine List.filter_congr fun t _ => ?_
  by_cases hnow : now < t + secs 300
  · have hlast : last < t + secs 300 := h.trans_lt hnow
    simp [hnow, hlast]
  · simp [hnow]

theorem three_le_window (hsorted : times.Pairwise (· ≤ ·)) :
    3 ≤ (window now times).length ↔ ∃ t, times.reverse[2]? = some t ∧ now < t + secs 300 := by
  have hlength : (window now times).length = (times.reverse.filter fun t => decide (now < t + secs 300)).length := by
    rw [List.filter_reverse, List.length_reverse]
    rfl
  have hreverse : times.reverse.Pairwise (· ≥ ·) := List.pairwise_reverse.mpr hsorted
  rw [hlength]
  generalize times.reverse = newest at hreverse
  cases hthird : newest[2]? with
  | none =>
    have hshort := List.getElem?_eq_none_iff.mp hthird
    have hle := List.length_filter_le (fun t => decide (now < t + secs 300)) newest
    simp only [reduceCtorEq, false_and, exists_false, iff_false]
    omega
  | some c =>
    obtain ⟨hlt, hget⟩ := List.getElem?_eq_some_iff.mp hthird
    have hsplit : newest = newest.take 2 ++ c :: newest.drop 3 := by
      rw [← hget, ← List.drop_eq_getElem_cons, List.take_append_drop]
    have htake : (newest.take 2).length = 2 := by
      rw [List.length_take]
      omega
    rw [hsplit, List.pairwise_append] at hreverse
    obtain ⟨-, hlater, hfirst⟩ := hreverse
    simp only [Option.some.injEq, exists_eq_left']
    rw [hsplit, List.filter_append, List.length_append]
    by_cases hc : now < c + secs 300
    · have htwo : (newest.take 2).filter (fun t => decide (now < t + secs 300)) = newest.take 2 := by
        refine List.filter_eq_self.mpr fun t ht => decide_eq_true ?_
        have hge := hfirst t ht c List.mem_cons_self
        omega
      have hthree : (c :: newest.drop 3).filter (fun t => decide (now < t + secs 300)) =
          c :: (newest.drop 3).filter fun t => decide (now < t + secs 300) :=
        List.filter_cons_of_pos (decide_eq_true hc)
      rw [htwo, htake, hthree, List.length_cons]
      exact iff_of_true (by omega) hc
    · have hnone : (c :: newest.drop 3).filter (fun t => decide (now < t + secs 300)) = [] := by
        refine List.filter_eq_nil_iff.mpr fun t ht hin => ?_
        have hlate := of_decide_eq_true hin
        rcases List.mem_cons.mp ht with rfl | ht
        · exact hc hlate
        · have hge := (List.pairwise_cons.mp hlater).1 t ht
          omega
      have hle := List.length_filter_le (fun t => decide (now < t + secs 300)) (newest.take 2)
      rw [hnone, List.length_nil]
      exact iff_of_false (by omega) hc

theorem getLastD_le (h : ∀ t ∈ times, t ≤ now) : times.getLastD 0 ≤ now := by
  rw [List.getLastD_eq_getLast?]
  cases hget : times.getLast? with
  | none => exact Nat.zero_le _
  | some t => exact h t (List.mem_of_getLast? hget)

structure Windowed (reports : List Report) (p : BalloonPolicy) : Prop where
  state : p.state = reports.foldl (fun _ r => stateOf r) .active
  transitions : p.transitions =
    window ((switches .active reports).getLastD 0) (switches .active reports)

theorem windowed_new (totalPages floorMb created : Nat) : Windowed [] (new totalPages floorMb created) := ⟨rfl, rfl⟩

theorem Windowed.observe (h : Windowed reports p) (hlater : ∀ t ∈ switches .active reports, t ≤ r.now) :
    Windowed (reports ++ [r]) (p.observe r) := by
  have hstate : stateOf r = if r.active then .active else .idle := rfl
  refine ⟨?_, ?_⟩
  · rw [List.foldl_append]
    rfl
  · rw [switches_concat, ← h.state]
    unfold BalloonPolicy.observe
    dsimp only
    rw [← hstate]
    by_cases hswitch : stateOf r ≠ p.state
    · rw [if_pos hswitch, if_pos hswitch, List.getLastD_concat, window_append, h.transitions, List.filter_append]
      exact congrArg (· ++ _) (window_window (getLastD_le hlater))
    · rw [if_neg hswitch, if_neg hswitch, List.append_nil]
      exact h.transitions

theorem Ordered.switches_le {created : Nat} {answers : List Answer} (h : Ordered created (answers ++ [a])) :
    ∀ t ∈ switches .active (answers.map Answer.report), t ≤ a.report.now := by
  intro t ht
  have hmem := (switches_sublist .active (answers.map Answer.report)).subset ht
  rw [List.map_map] at hmem
  obtain ⟨b, hb, rfl⟩ := List.mem_map.mp hmem
  exact h.of_concat.2 b hb

theorem Ordered.switches_sorted {created : Nat} {answers : List Answer} (h : Ordered created answers) :
    (switches .active (answers.map Answer.report)).Pairwise (· ≤ ·) := by
  have hsub := switches_sublist .active (answers.map Answer.report)
  rw [List.map_map] at hsub
  exact h.2.sublist hsub

theorem Runs.windowed {totalPages floorMb created : Nat} {answers : List Answer}
    (hrun : Runs totalPages floorMb created answers p) (hordered : Ordered created answers) :
    Windowed (answers.map Answer.report) p := by
  refine Steps.invariant_history
    (P := fun answers p => Ordered created answers → Windowed (answers.map Answer.report) p) ?_ hrun
    (fun _ => windowed_new totalPages floorMb created) hordered
  intro answers p a q hanswers h hordered
  obtain ⟨hstate, htransitions⟩ := (h hordered.of_concat.1).observe hordered.switches_le
  have hframed := hanswers.framed
  rw [List.map_append, List.map_singleton]
  exact ⟨hframed.state.trans hstate, hframed.transitions.trans htransitions⟩

end Cooldown

/-- For every report that a run can go on with. -/
theorem cooldown_right_iff {totalPages floorMb created : Nat} {answers : List Answer}
    (hrun : Runs totalPages floorMb created answers p) (hordered : Ordered created (answers ++ [a])) :
    let times := switches .active ((answers ++ [a]).map Answer.report)
    (p.observe a.report).cooldownDuration = burstCooldown a.report.now times ↔ Fresh a.report.now times := by
  dsimp only
  have hwindowed := (hrun.windowed hordered.of_concat.1).observe hordered.switches_le
  have hsorted := hordered.switches_sorted
  have hmap : (answers ++ [a]).map Answer.report = answers.map Answer.report ++ [a.report] := by
    rw [List.map_append, List.map_singleton]
  rw [hmap] at hsorted ⊢
  have hlast : (switches .active (answers.map Answer.report ++ [a.report])).getLastD 0 ≤ a.report.now := by
    refine getLastD_le fun t ht => ?_
    rw [switches_concat] at ht
    rcases List.mem_append.mp ht with ht | ht
    · exact hordered.switches_le t ht
    · split at ht
      · exact (List.mem_singleton.mp ht).le
      · cases ht
  unfold cooldownDuration burstCooldown Fresh
  rw [hwindowed.transitions]
  generalize switches .active (answers.map Answer.report ++ [a.report]) = times at hlast hsorted ⊢
  have hsame : ∀ P Q : Prop, [Decidable P] → [Decidable Q] →
      ((if P then secs 180 else secs 60) = (if Q then secs 180 else secs 60) ↔ (P ↔ Q)) := by
    intro P Q _ _
    have hne : secs 180 ≠ secs 60 := by decide
    by_cases hP : P
    · by_cases hQ : Q
      · simp [hP, hQ]
      · simp [hP, hQ, hne]
    · by_cases hQ : Q
      · simp [hP, hQ, hne.symm]
      · simp [hP, hQ]
  rw [hsame, ge_iff_le, ge_iff_le, three_le_window hsorted, three_le_window hsorted]
  cases times.reverse[2]? with
  | none => simp
  | some t =>
    simp only [Option.some.injEq, exists_eq_left', forall_eq']
    exact ⟨Iff.mp, fun hfresh => ⟨hfresh, fun hnow => hlast.trans_lt hnow⟩⟩

def burst : List Answer :=
  [⟨⟨secs 61, false, false⟩, .inflate 32768⟩, ⟨⟨secs 200, true, false⟩, .deflate 32768⟩,
    ⟨⟨secs 250, false, false⟩, .hold⟩]

theorem burst_runs : Runs 262144 512 0 burst
    ⟨0, 131072, 131072, secs 200, secs 200, [secs 61, secs 200, secs 250], .idle⟩ := by
  have hidle : Answers (new 262144 512 0) ⟨⟨secs 61, false, false⟩, .inflate 32768⟩
      ⟨32768, 131072, 131072, 0, 0, [secs 61], .idle⟩ := by decide
  have hactive : Answers ⟨32768, 131072, 131072, 0, 0, [secs 61], .idle⟩ ⟨⟨secs 200, true, false⟩, .deflate 32768⟩
      ⟨0, 131072, 131072, secs 200, secs 200, [secs 61, secs 200], .active⟩ := by decide
  exact .cons hidle (.cons hactive (.cons (by decide) (.nil _)))

def idleAt (now : Nat) : Answer := ⟨⟨now, false, false⟩, .hold⟩

theorem cooldown_right_fails :
    ∃ p, Runs 262144 512 0 burst p ∧ Ordered 0 (burst ++ [idleAt (secs 365)]) ∧
      (p.observe (idleAt (secs 365)).report).cooldownDuration = secs 180 ∧
      burstCooldown (secs 365) (switches .active ((burst ++ [idleAt (secs 365)]).map Answer.report)) = secs 60 :=
  ⟨_, burst_runs, by decide, by decide, by decide⟩

theorem cooldown_right_iff_burst :
    ∃ p, Runs 262144 512 0 burst p ∧
      (p.observe (idleAt (secs 360)).report).cooldownDuration =
        burstCooldown (secs 360) (switches .active ((burst ++ [idleAt (secs 360)]).map Answer.report)) := by
  have hordered : Ordered 0 (burst ++ [idleAt (secs 360)]) := by decide
  refine ⟨_, burst_runs, (cooldown_right_iff burst_runs hordered).mpr ?_⟩
  intro t ht hlast
  have hthird : (switches .active ((burst ++ [idleAt (secs 360)]).map Answer.report)).reverse[2]? = some (secs 61) := by
    decide
  rw [hthird, Option.some_inj] at ht
  subst ht
  decide

end BalloonPolicy

end CloneVmm.Memory
