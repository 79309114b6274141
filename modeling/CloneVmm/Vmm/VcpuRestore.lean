import CloneVmm.Vmm.SerialRuns
import CloneVmm.Vmm.VcpuTemplate

namespace CloneVmm.Vmm

open CloneVmm.Lib CloneVmm.Boot CloneVmm.Boot.SnapshotHost

def Setting.turn : Setting → Nat
  | .cpuid => 0
  | .part .mpState => 1
  | .part .regs => 2
  | .part .sregs => 3
  | .part .xsave | .part .fpu => 4
  | .part .xcrs => 5
  | .part .debugRegs => 6
  | .part .lapic => 7
  | .msr _ => 8
  | .part .vcpuEvents => 9
  | .tscKhz => 10

def component (state : VcpuState) : Component → List UInt8
  | .regs => state.regs
  | .sregs => state.sregs
  | .lapic => state.lapic
  | .fpu => state.fpu
  | .xsave => state.xsave
  | .xcrs => state.xcrs
  | .mpState => state.mpState
  | .vcpuEvents => state.vcpuEvents
  | .debugRegs => state.debugRegs

namespace Kvm

variable {σ F : Type} {kvm : Kvm σ} {ft : JsonText.FloatText F} {disturbs : Setting → Setting → Prop} {r s t fresh : σ}
  {state : VcpuState} {entries : List MsrEntry} {e : MsrEntry}

/-- KVM takes what it has reported of a vCPU, and time stands still. -/
structure Faithful (kvm : Kvm σ) (disturbs : Setting → Setting → Prop) : Prop extends kvm.toSettings.Lawful disturbs where
  accepted : ∀ {c : Component} {data : List UInt8} {r : σ}, kvm.read (.part c) r = some data →
    ∀ s, ∃ t, kvm.write (.part c) data s = some t
  runs : ∃ r, kvm.read (.part .mpState) r = some runnable
  clock : ∀ {s t : σ}, kvm.kvmclockCtrl s = some t → ∀ k, kvm.read k t = kvm.read k s

theorem chunk_getElem? (indices : List UInt32) (i q : Nat) :
    ((indices.drop (64 * i)).take 64)[q]? = if q < 64 then indices[64 * i + q]? else none := by
  rw [List.getElem?_take, List.getElem?_drop]

theorem mem_getMsrs {indices : List UInt32} {e : MsrEntry} :
    e ∈ (chunks indices).flatMap (kvm.getMsrs s) ↔ ∃ p : Nat, indices[p]? = some e.1 ∧ kvm.read (.msr e.1) s = some e.2 ∧
      ∀ q, 64 * (p / 64) ≤ q → q ≤ p → ∀ i ∈ indices[q]?, (kvm.read (.msr i) s).isSome = true := by
  have hchunk : ∀ i, e ∈ kvm.getMsrs s ((indices.drop (64 * i)).take 64) ↔ ∃ p : Nat, p < 64 ∧
      indices[64 * i + p]? = some e.1 ∧ kvm.read (.msr e.1) s = some e.2 ∧
      ∀ q ≤ p, ∀ j ∈ indices[64 * i + q]?, (kvm.read (.msr j) s).isSome = true := by
    intro i
    have hlimit : ((indices.drop (64 * i)).take 64).length ≤ kvm.msrLimit :=
      (List.length_take_le _ _).trans kvm.chunk_le
    have hentry : e ∈ kvm.getMsrs s ((indices.drop (64 * i)).take 64) ↔
        ⟨e.1, e.2⟩ ∈ kvm.msrs.readFirst s ((indices.drop (64 * i)).take 64) := by
      rw [getMsrs, if_pos hlimit, List.mem_map]
      constructor
      · rintro ⟨a, ha, rfl⟩
        exact ha
      · exact fun he => ⟨_, he, rfl⟩
    rw [hentry, Settings.mem_readFirst]
    apply exists_congr
    intro p
    rw [chunk_getElem?]
    by_cases hp : p < 64
    · rw [if_pos hp]
      simp only [hp, true_and]
      apply and_congr_right
      intro _
      apply and_congr Iff.rfl
      apply forall₂_congr
      intro q hq
      rw [chunk_getElem?, if_pos (by omega)]
      exact Iff.rfl
    · rw [if_neg hp]
      simp [hp]
  rw [chunks, List.flatMap_map, List.mem_flatMap]
  constructor
  · rintro ⟨i, -, he⟩
    obtain ⟨p, hp, hindex, hread, hall⟩ := (hchunk i).mp he
    refine ⟨64 * i + p, hindex, hread, fun q hq hqp j hj => ?_⟩
    have hstart : (64 * i + p) / 64 = i := by omega
    rw [hstart] at hq
    apply hall (q - 64 * i) (by omega) j
    rwa [Nat.add_sub_cancel' hq]
  · rintro ⟨p, hindex, hread, hall⟩
    have hlength : p < indices.length := by
      obtain ⟨hlt, -⟩ := List.getElem?_eq_some_iff.mp hindex
      exact hlt
    have hposition : 64 * (p / 64) + p % 64 = p := Nat.div_add_mod p 64
    refine ⟨p / 64, List.mem_range.mpr (by omega), (hchunk _).mpr ⟨p % 64, Nat.mod_lt _ (by omega), ?_, hread, ?_⟩⟩
    · rw [hposition]
      exact hindex
    · intro q hq
      exact hall _ (Nat.le_add_right _ _) (by omega)

theorem restorable_eq (entries : List MsrEntry) :
    restorable entries = entries.filter fun e => e.1 ≠ tscDeadlineMsr ∧ pvZero e = false := by
  unfold restorable
  dsimp only
  generalize ((entries.find? fun e => e.1 = tscMsr).map Prod.snd).getD 0 = tscVal
  have hfixed : ((entries.map fun e => if e.1 = tscDeadlineMsr ∧ e.2 = 0 ∧ 0 < tscVal then (e.1, tscVal) else e).filter
      fun e => e.1 ≠ tscDeadlineMsr) = entries.filter fun e => e.1 ≠ tscDeadlineMsr := by
    induction entries with
    | nil => rfl
    | cons e es ih =>
      rw [List.map_cons]
      by_cases hdeadline : e.1 = tscDeadlineMsr
      · rw [List.filter_cons_of_neg, List.filter_cons_of_neg, ih]
        · simp [hdeadline]
        · split
          · simp [hdeadline]
          · simp [hdeadline]
      · rw [if_neg (fun h => hdeadline h.1), List.filter_cons_of_pos, List.filter_cons_of_pos, ih]
        · simp [hdeadline]
        · simp [hdeadline]
  rw [hfixed, List.filter_filter]
  apply List.filter_congr
  intro e _
  rw [Bool.decide_and, Bool.and_comm]
  congr 1
  cases pvZero e with
  | false => rfl
  | true => rfl

theorem mem_captureMsrs (hcapture : kvm.captureMsrs r = some entries) (hdeadline : e.1 ≠ tscDeadlineMsr) :
    e ∈ entries ↔ ∃ (indices : List UInt32) (p : Nat), kvm.msrIndices = some indices ∧ indices[p]? = some e.1 ∧
      kvm.read (.msr e.1) r = some e.2 ∧
      ∀ q, 64 * (p / 64) ≤ q → q ≤ p → ∀ i ∈ indices[q]?, (kvm.read (.msr i) r).isSome = true := by
  obtain ⟨indices, hindices, hentries⟩ := Option.map_eq_some_iff.mp hcapture
  have hmem : e ∈ entries ↔ e ∈ (chunks indices).flatMap (kvm.getMsrs r) := by
    rw [← hentries]
    dsimp only
    split
    · exact Iff.rfl
    · rw [List.mem_append, List.mem_singleton]
      apply or_iff_left
      rintro rfl
      exact hdeadline rfl
  rw [hmem, mem_getMsrs]
  constructor
  · rintro ⟨p, hread⟩
    exact ⟨indices, p, hindices, hread⟩
  · rintro ⟨indices', p, hindices', hread⟩
    cases hindices.symm.trans hindices'
    exact ⟨p, hread⟩

theorem read_of_mem_captureMsrs (hcapture : kvm.captureMsrs r = some entries) (he : e ∈ entries)
    (hdeadline : e.1 ≠ tscDeadlineMsr) : kvm.read (.msr e.1) r = some e.2 := by
  obtain ⟨-, -, -, -, hread, -⟩ := (mem_captureMsrs hcapture hdeadline).mp he
  exact hread

def Portable (kvm : Kvm σ) (r : σ) (e : MsrEntry) : Prop :=
  e.1 ≠ tscDeadlineMsr ∧ pvZero e = false ∧ ∃ (indices : List UInt32) (p : Nat), kvm.msrIndices = some indices ∧
    indices[p]? = some e.1 ∧ kvm.read (.msr e.1) r = some e.2 ∧
    ∀ q, 64 * (p / 64) ≤ q → q ≤ p → ∀ i ∈ indices[q]?, (kvm.read (.msr i) r).isSome = true

theorem mem_restorable (hcapture : kvm.captureMsrs r = some entries) : e ∈ restorable entries ↔ kvm.Portable r e := by
  rw [restorable_eq, List.mem_filter, decide_eq_true_iff, Portable]
  constructor
  · rintro ⟨he, hdeadline, hzero⟩
    exact ⟨hdeadline, hzero, (mem_captureMsrs hcapture hdeadline).mp he⟩
  · rintro ⟨hdeadline, hzero, hread⟩
    exact ⟨(mem_captureMsrs hcapture hdeadline).mpr hread, hdeadline, hzero⟩

theorem read_of_mem_restorable (hcapture : kvm.captureMsrs r = some entries) (he : e ∈ restorable entries) :
    kvm.read (.msr e.1) r = some e.2 := by
  obtain ⟨-, -, -, -, -, -, hread, -⟩ := (mem_restorable hcapture).mp he
  exact hread

theorem setMsrs_copies (hread : ∀ e ∈ entries, kvm.read (.msr e.1) r = some e.2) :
    kvm.toSettings.Copies r s ((entries.take (kvm.setMsrs entries s).2).map fun e => .msr e.1) (kvm.setMsrs entries s).1 := by
  unfold setMsrs
  split
  · have hcopies := @Settings.copies_writeFirst _ _ _ kvm.msrs r s (entries.map fun e => ⟨e.1, e.2⟩) (by
      rw [List.forall_mem_map]
      exact hread)
    rw [← List.map_take, List.map_map] at hcopies
    have hlifted := hcopies.of_comap
    rw [List.map_map] at hlifted
    exact hlifted
  · exact .nil s

structure Captured (kvm : Kvm σ) (ft : JsonText.FloatText F) (r : σ) (state : VcpuState) : Prop where
  part : ∀ c, kvm.read (.part c) r = some (component state c)
  tscKhz : state.tscKhz = (kvm.read .tscKhz r).getD 0
  msrs : state.msrs = ((kvm.captureMsrs r).map (msrsToVec ft)).getD []

theorem captured_of_captureState (h : kvm.captureState ft r = .ok state) : kvm.Captured ft r state := by
  obtain ⟨regs, hregs, h⟩ := exceptBind_eq_ok.mp h
  obtain ⟨sregs, hsregs, h⟩ := exceptBind_eq_ok.mp h
  obtain ⟨lapic, hlapic, h⟩ := exceptBind_eq_ok.mp h
  obtain ⟨fpu, hfpu, h⟩ := exceptBind_eq_ok.mp h
  obtain ⟨xsave, hxsave, h⟩ := exceptBind_eq_ok.mp h
  obtain ⟨xcrs, hxcrs, h⟩ := exceptBind_eq_ok.mp h
  obtain ⟨mpState, hmpState, h⟩ := exceptBind_eq_ok.mp h
  obtain ⟨vcpuEvents, hvcpuEvents, h⟩ := exceptBind_eq_ok.mp h
  obtain ⟨debugRegs, hdebugRegs, h⟩ := exceptBind_eq_ok.mp h
  cases h
  rw [orError_eq_ok] at hregs hsregs hlapic hfpu hxsave hxcrs hmpState hvcpuEvents hdebugRegs
  refine ⟨fun c => ?_, rfl, rfl⟩
  cases c with
  | regs => exact hregs
  | sregs => exact hsregs
  | lapic => exact hlapic
  | fpu => exact hfpu
  | xsave => exact hxsave
  | xcrs => exact hxcrs
  | mpState => exact hmpState
  | vcpuEvents => exact hvcpuEvents
  | debugRegs => exact hdebugRegs

theorem exists_captureState (ft : JsonText.FloatText F) {data : Component → List UInt8}
    (h : ∀ c, kvm.read (.part c) r = some (data c)) : ∃ state, kvm.captureState ft r = .ok state := by
  simp only [captureState, h]
  exact ⟨_, rfl⟩

theorem Captured.msrEntries (h : kvm.Captured ft r state) :
    (if state.msrs.isEmpty then none else msrsFromSlice ft state.msrs) = kvm.captureMsrs r := by
  rw [h.msrs]
  cases kvm.captureMsrs r with
  | none => rfl
  | some entries =>
    rw [Option.map_some, Option.getD_some, if_neg, msrsFromSlice_msrsToVec]
    rw [List.isEmpty_iff]
    exact msrsToVec_ne_nil ft entries

theorem preRestoreTsc_copies (hread : ∀ e ∈ entries, e.1 = tscMsr → kvm.read (.msr e.1) r = some e.2) (s : σ) :
    ∃ ks, kvm.toSettings.Copies r s ks (kvm.preRestoreTsc entries s) ∧ ∀ k ∈ ks, k = .msr tscMsr := by
  unfold Kvm.preRestoreTsc
  dsimp only
  split
  · exact ⟨[], .nil s, List.forall_mem_nil _⟩
  · refine ⟨_, setMsrs_copies fun e he => ?_, fun k hk => ?_⟩
    · rw [List.mem_filter, decide_eq_true_iff] at he
      exact hread e he.1 he.2
    · obtain ⟨e, he, rfl⟩ := List.mem_map.mp hk
      have hmem := List.mem_of_mem_take he
      rw [List.mem_filter, decide_eq_true_iff] at hmem
      rw [hmem.2]

theorem tscKhz_copies (hc : kvm.Captured ft r state) (s : σ) :
    ∃ ks, kvm.toSettings.Copies r s ks (if 0 < state.tscKhz then (kvm.write .tscKhz state.tscKhz s).getD s else s) ∧
      ∀ k ∈ ks, k = .tscKhz := by
  split
  · rename_i hpos
    cases hwrite : kvm.write .tscKhz state.tscKhz s with
    | none => exact ⟨[], .nil s, List.forall_mem_nil _⟩
    | some t =>
      refine ⟨[.tscKhz], .single ?_ hwrite, List.forall_mem_singleton.mpr rfl⟩
      rw [hc.tscKhz] at hpos ⊢
      cases hread : kvm.read .tscKhz r with
      | none =>
        rw [hread] at hpos
        exact absurd hpos (Nat.lt_irrefl 0)
      | some khz => rfl
  · exact ⟨[], .nil s, List.forall_mem_nil _⟩

namespace Faithful

variable (h : kvm.Faithful disturbs)
include h

theorem setPart {c : Component} {data : List UInt8} (hread : kvm.read (.part c) r = some data) (s : σ) :
    ∃ t, kvm.setPart c data s = .ok t ∧ kvm.toSettings.Copies r s [.part c] t := by
  obtain ⟨t, hwrite⟩ := h.accepted hread s
  exact ⟨t, orError_eq_ok.mpr hwrite, .single hread hwrite⟩

theorem restore {c : Component} {data : List UInt8} (hread : kvm.read (.part c) r = some data) (s : σ) :
    ∃ t, kvm.restore c data s = .ok t ∧ kvm.toSettings.Copies r s [.part c] t := by
  rw [Kvm.restore, if_pos (kvm.read_size hread)]
  exact h.setPart hread s

omit h in
theorem not_empty {c : Component} {data : List UInt8} (hread : kvm.read (.part c) r = some data) :
    ¬data.isEmpty = true := by
  intro hempty
  have hsize := kvm.read_size hread
  rw [List.isEmpty_iff.mp hempty] at hsize
  exact absurd hsize (Nat.ne_of_lt (kvm.size_pos c))

theorem restoreIfAny {c : Component} {data : List UInt8} (hread : kvm.read (.part c) r = some data) (s : σ) :
    ∃ t, kvm.restoreIfAny c data s = .ok t ∧ kvm.toSettings.Copies r s [.part c] t := by
  rw [Kvm.restoreIfAny, if_neg (not_empty hread)]
  exact h.restore hread s

theorem restoreXsave (hread : kvm.read (.part .xsave) r = some state.xsave) (s : σ) :
    ∃ t, kvm.restoreXsave state s = .ok t ∧ kvm.toSettings.Copies r s [.part .xsave] t := by
  rw [Kvm.restoreXsave, if_neg (not_empty hread), if_pos (kvm.read_size hread)]
  exact h.setPart hread s

end Faithful

/-- The MSRs that KVM takes in state `s`. -/
def taken (kvm : Kvm σ) (r s : σ) : List MsrEntry :=
  ((kvm.captureMsrs r).map fun entries => (restorable entries).take (kvm.setMsrs (restorable entries) s).2).getD []

def calls (tsc : List Setting) (msrs : List MsrEntry) (frequency : List Setting) : List Setting :=
  .part .regs :: .part .sregs :: .part .xsave :: .part .xcrs :: .part .debugRegs ::
    (tsc ++ .part .lapic :: ((msrs.map fun e => .msr e.1) ++ .part .vcpuEvents :: frequency))

structure Order (kvm : Kvm σ) (r fresh s : σ) where
  running : σ
  ready : σ
  last : σ
  tsc : List Setting
  frequency : List Setting
  mpState : kvm.write (.part .mpState) runnable fresh = some running
  written : kvm.toSettings.Copies r running (calls tsc (kvm.taken r ready) frequency) last
  tsc_eq : ∀ k ∈ tsc, k = .msr tscMsr
  frequency_eq : ∀ k ∈ frequency, k = .tscKhz
  clock : ∀ k, kvm.read k s = kvm.read k last

theorem Faithful.fromTemplate (h : kvm.Faithful disturbs) (hc : kvm.Captured ft r state) (hnew : kvm.newVcpu = .ok fresh) :
    ∃ s, kvm.fromTemplate ft state = .ok (s, (kvm.captureMsrs r).map fun _ => 1) ∧ Nonempty (kvm.Order r fresh s) := by
  obtain ⟨r₀, hruns⟩ := h.runs
  obtain ⟨s₁, hmpState⟩ := h.accepted hruns fresh
  have hset : kvm.setPart .mpState runnable fresh = .ok s₁ := orError_eq_ok.mpr hmpState
  obtain ⟨s₂, hregs, hcopyRegs⟩ := h.restore (hc.part .regs) s₁
  obtain ⟨s₃, hsregs, hcopySregs⟩ := h.restore (hc.part .sregs) s₂
  obtain ⟨s₄, hxsave, hcopyXsave⟩ := h.restoreXsave (hc.part .xsave) s₃
  obtain ⟨s₅, hxcrs, hcopyXcrs⟩ := h.restoreIfAny (hc.part .xcrs) s₄
  obtain ⟨s₆, hdebugRegs, hcopyDebugRegs⟩ := h.restoreIfAny (hc.part .debugRegs) s₅
  have hfront := hcopyRegs.append (hcopySregs.append (hcopyXsave.append (hcopyXcrs.append hcopyDebugRegs)))
  obtain ⟨tsc, htsc, htscKeys⟩ : ∃ ks, kvm.toSettings.Copies r s₆ ks
      (((kvm.captureMsrs r).map (kvm.preRestoreTsc · s₆)).getD s₆) ∧ ∀ k ∈ ks, k = .msr tscMsr := by
    cases hmsrs : kvm.captureMsrs r with
    | none => exact ⟨[], .nil s₆, List.forall_mem_nil _⟩
    | some entries =>
      refine preRestoreTsc_copies (fun e he htsc => read_of_mem_captureMsrs hmsrs he ?_) s₆
      rw [htsc]
      decide
  generalize hs₇ : ((kvm.captureMsrs r).map (kvm.preRestoreTsc · s₆)).getD s₆ = s₇ at htsc
  obtain ⟨s₈, hlapic, hcopyLapic⟩ := h.restoreIfAny (hc.part .lapic) s₇
  have htaken : kvm.toSettings.Copies r s₈ ((kvm.taken r s₈).map fun e => .msr e.1)
      (((kvm.captureMsrs r).map fun entries => (kvm.setMsrs (restorable entries) s₈).1).getD s₈) := by
    unfold taken
    cases hmsrs : kvm.captureMsrs r with
    | none => exact .nil s₈
    | some entries => exact setMsrs_copies fun e he => read_of_mem_restorable hmsrs he
  generalize hs₉ : ((kvm.captureMsrs r).map fun entries => (kvm.setMsrs (restorable entries) s₈).1).getD s₈ = s₉ at htaken
  obtain ⟨s₁₀, hevents, hcopyEvents⟩ := h.restoreIfAny (hc.part .vcpuEvents) s₉
  obtain ⟨frequency, hfrequency, hfrequencyKeys⟩ := tscKhz_copies hc s₁₀
  generalize hs₁₁ : (if 0 < state.tscKhz then (kvm.write .tscKhz state.tscKhz s₁₀).getD s₁₀ else s₁₀) = s₁₁ at hfrequency
  have hwritten := hfront.append (htsc.append (hcopyLapic.append (htaken.append (hcopyEvents.append hfrequency))))
  refine ⟨(kvm.kvmclockCtrl s₁₁).getD s₁₁, ?_,
    ⟨s₁, s₈, s₁₁, tsc, frequency, hmpState, hwritten, htscKeys, hfrequencyKeys, ?_⟩⟩
  · simp only [component] at hregs hsregs hxcrs hdebugRegs hlapic hevents
    simp only [Kvm.fromTemplate, bind, Except.bind, hnew, hset, hregs, hsregs, hxsave, hxcrs, hdebugRegs, hc.msrEntries,
      hs₇, hlapic, hs₉, hevents, hs₁₁]
    rfl
  · intro k
    cases hclock : kvm.kvmclockCtrl s₁₁ with
    | none => rfl
    | some t => exact h.clock hclock k

theorem calls_split {tsc frequency : List Setting} (htsc : ∀ k ∈ tsc, k = .msr tscMsr)
    (hfrequency : ∀ k ∈ frequency, k = .tscKhz) (msrs : List MsrEntry) {c : Component} (hmpState : c ≠ .mpState)
    (hfpu : c ≠ .fpu) : ∃ before after, calls tsc msrs frequency = before ++ .part c :: after ∧
      ∀ k ∈ after, (Setting.part c).turn < k.turn := by
  have hevents {n : Nat} (hn : n < 10) : ∀ k ∈ frequency, n < k.turn := by
    intro k hk
    rw [hfrequency k hk]
    exact hn
  have hmsrs {n : Nat} (hn : n < 8) :
      ∀ k ∈ (msrs.map fun e => Setting.msr e.1) ++ .part .vcpuEvents :: frequency, n < k.turn := by
    rw [List.forall_mem_append, List.forall_mem_map, List.forall_mem_cons]
    exact ⟨fun _ _ => hn, hn.trans (by decide), hevents (hn.trans (by decide))⟩
  have hlapic {n : Nat} (hn : n < 7) : ∀ k ∈ tsc ++ .part .lapic ::
      ((msrs.map fun e => .msr e.1) ++ .part .vcpuEvents :: frequency), n < k.turn := by
    rw [List.forall_mem_append, List.forall_mem_cons]
    refine ⟨fun k hk => ?_, hn, hmsrs (hn.trans (by decide))⟩
    rw [htsc k hk]
    exact hn.trans (by decide)
  cases c with
  | regs =>
    refine ⟨[], _, rfl, ?_⟩
    simp only [List.forall_mem_cons]
    exact ⟨by decide, by decide, by decide, by decide, hlapic (by decide)⟩
  | sregs =>
    refine ⟨[.part .regs], _, rfl, ?_⟩
    simp only [List.forall_mem_cons]
    exact ⟨by decide, by decide, by decide, hlapic (by decide)⟩
  | xsave =>
    refine ⟨[.part .regs, .part .sregs], _, rfl, ?_⟩
    simp only [List.forall_mem_cons]
    exact ⟨by decide, by decide, hlapic (by decide)⟩
  | xcrs =>
    refine ⟨[.part .regs, .part .sregs, .part .xsave], _, rfl, ?_⟩
    simp only [List.forall_mem_cons]
    exact ⟨by decide, hlapic (by decide)⟩
  | debugRegs => exact ⟨[.part .regs, .part .sregs, .part .xsave, .part .xcrs], _, rfl, hlapic (by decide)⟩
  | lapic =>
    refine ⟨.part .regs :: .part .sregs :: .part .xsave :: .part .xcrs :: .part .debugRegs :: tsc, _, rfl, ?_⟩
    exact hmsrs (by decide)
  | vcpuEvents =>
    refine ⟨.part .regs :: .part .sregs :: .part .xsave :: .part .xcrs :: .part .debugRegs ::
      (tsc ++ .part .lapic :: msrs.map fun e => .msr e.1), frequency, ?_, hevents (by decide)⟩
    simp [calls]
  | fpu => exact absurd rfl hfpu
  | mpState => exact absurd rfl hmpState

theorem turn_of_mem_calls {tsc frequency : List Setting} (htsc : ∀ k ∈ tsc, k = .msr tscMsr)
    (hfrequency : ∀ k ∈ frequency, k = .tscKhz) {msrs : List MsrEntry} {k : Setting} (hk : k ∈ calls tsc msrs frequency) :
    (Setting.part .mpState).turn < k.turn := by
  simp only [calls, List.mem_cons, List.mem_append, List.mem_map] at hk
  rcases hk with rfl | rfl | rfl | rfl | rfl | hk | rfl | ⟨e, -, rfl⟩ | rfl | hk
  case inr.inr.inr.inr.inr.inl =>
    rw [htsc k hk]
    decide
  case inr.inr.inr.inr.inr.inr.inr.inr.inr =>
    rw [hfrequency k hk]
    decide
  all_goals simp [Setting.turn]

namespace Order

variable (o : kvm.Order r fresh s) (h : kvm.Faithful disturbs)
include o h

theorem read_component {c : Component} (hmpState : c ≠ .mpState) (hfpu : c ≠ .fpu)
    (hdisturbs : ∀ k, (Setting.part c).turn < k.turn → ¬disturbs k (.part c)) :
    kvm.read (.part c) s = kvm.read (.part c) r := by
  obtain ⟨before, after, hcalls, hlater⟩ := calls_split o.tsc_eq o.frequency_eq (kvm.taken r o.ready) hmpState hfpu
  have hwritten := o.written
  rw [hcalls] at hwritten
  rw [o.clock]
  exact hwritten.read_of_split h.toLawful fun k hk _ => hdisturbs k (hlater k hk)

theorem read_mpState (hdisturbs : ∀ k, (Setting.part .mpState).turn < k.turn → ¬disturbs k (.part .mpState)) :
    kvm.read (.part .mpState) s = some runnable := by
  obtain ⟨r₀, hruns⟩ := h.runs
  have hlater : ∀ k ∈ calls o.tsc (kvm.taken r o.ready) o.frequency, (Setting.part .mpState).turn < k.turn := by
    intro k hk
    exact turn_of_mem_calls o.tsc_eq o.frequency_eq hk
  rw [o.clock, ← h.written hruns o.mpState]
  apply o.written.read_of_not_mem h.toLawful
  · exact fun hk => absurd (hlater _ hk) (Nat.lt_irrefl _)
  · exact fun k hk => hdisturbs k (hlater k hk)

theorem read_msr {n : Nat} (he : (kvm.taken r o.ready)[n]? = some e)
    (hmsrs : ∀ e' ∈ (kvm.taken r o.ready).drop (n + 1), e'.1 ≠ e.1 → ¬disturbs (.msr e'.1) (.msr e.1))
    (hdisturbs : ∀ k, (Setting.msr e.1).turn < k.turn → ¬disturbs k (.msr e.1)) :
    kvm.read (.msr e.1) s = kvm.read (.msr e.1) r := by
  obtain ⟨hn, he⟩ := List.getElem?_eq_some_iff.mp he
  have hsplit : (kvm.taken r o.ready) = (kvm.taken r o.ready).take n ++ e :: (kvm.taken r o.ready).drop (n + 1) := by
    rw [← he, List.getElem_cons_drop, List.take_append_drop]
  have hcalls : ∃ before, calls o.tsc (kvm.taken r o.ready) o.frequency = before ++ .msr e.1 ::
      (((kvm.taken r o.ready).drop (n + 1)).map (fun e => .msr e.1) ++ .part .vcpuEvents :: o.frequency) := by
    refine ⟨.part .regs :: .part .sregs :: .part .xsave :: .part .xcrs :: .part .debugRegs ::
      (o.tsc ++ .part .lapic :: ((kvm.taken r o.ready).take n).map fun e => .msr e.1), ?_⟩
    conv_lhs => rw [hsplit]
    simp [calls]
  obtain ⟨before, hcalls⟩ := hcalls
  have hwritten := o.written
  rw [hcalls] at hwritten
  rw [o.clock]
  apply hwritten.read_of_split h.toLawful
  rw [List.forall_mem_append, List.forall_mem_map, List.forall_mem_cons]
  refine ⟨fun e' he' hne => hmsrs e' he' fun heq => hne (congrArg Setting.msr heq), fun _ => ?_, fun k hk _ => ?_⟩
  · exact hdisturbs _ (by simp [Setting.turn])
  · rw [o.frequency_eq k hk]
    exact hdisturbs _ (by simp [Setting.turn])

end Order

structure Restored (kvm : Kvm σ) (disturbs : Setting → Setting → Prop) (r s : σ) : Prop where
  component : ∀ {c : Component}, c ≠ .mpState → c ≠ .fpu →
    (∀ k, (Setting.part c).turn < k.turn → ¬disturbs k (.part c)) → kvm.read (.part c) s = kvm.read (.part c) r
  runnable : (∀ k, (Setting.part .mpState).turn < k.turn → ¬disturbs k (.part .mpState)) →
    kvm.read (.part .mpState) s = some runnable
  /-- KVM takes the captured MSRs up to the first that it refuses. -/
  msrs : ∀ entries, kvm.captureMsrs r = some entries → (∀ e, e ∈ restorable entries ↔ kvm.Portable r e) ∧
    ((restorable entries).length ≤ kvm.msrLimit →
    ∃ n, (∀ e ∈ (restorable entries)[n]?, ∃ t, kvm.write (.msr e.1) e.2 t = none) ∧
      ∀ p < n, ∀ e ∈ (restorable entries)[p]?,
        (∀ e' ∈ ((restorable entries).take n).drop (p + 1), e'.1 ≠ e.1 → ¬disturbs (.msr e'.1) (.msr e.1)) →
        (∀ k, (Setting.msr e.1).turn < k.turn → ¬disturbs k (.msr e.1)) → kvm.read (.msr e.1) s = some e.2)

theorem Order.restored (o : kvm.Order r fresh s) (h : kvm.Faithful disturbs) : kvm.Restored disturbs r s where
  component := o.read_component h
  runnable := o.read_mpState h
  msrs := by
    intro entries hcapture
    refine ⟨fun e => mem_restorable hcapture, fun hlimit => ?_⟩
    have htaken : kvm.taken r o.ready = (restorable entries).take (kvm.setMsrs (restorable entries) o.ready).2 := by
      rw [taken, hcapture]
      rfl
    refine ⟨(kvm.setMsrs (restorable entries) o.ready).2, fun e he => ?_, fun p hp e he hmsrs hdisturbs => ?_⟩
    · refine ⟨(kvm.setMsrs (restorable entries) o.ready).1, ?_⟩
      rw [setMsrs, if_pos hlimit] at he ⊢
      refine @Settings.writeFirst_refused _ _ _ kvm.msrs o.ready ((restorable entries).map fun e => ⟨e.1, e.2⟩) ⟨e.1, e.2⟩ ?_
      rw [List.getElem?_map, he]
      rfl
    · have hread : kvm.read (.msr e.1) s = kvm.read (.msr e.1) r := by
        apply o.read_msr h (n := p)
        · rw [htaken, List.getElem?_take_of_lt hp]
          exact he
        · rw [htaken]
          exact hmsrs
        · exact hdisturbs
      rw [hread]
      exact read_of_mem_restorable hcapture (List.mem_of_getElem? he)

theorem Faithful.restartTimer (h : kvm.Faithful disturbs) {k : Setting} (hk : k ≠ .part .lapic)
    (hdisturbs : ¬disturbs (.part .lapic) k) (deferred : Option UInt64) :
    kvm.read k (kvm.restartTimer deferred s) = kvm.read k s := by
  unfold Kvm.restartTimer
  split
  · rename_i lapic hread
    cases hwrite : kvm.write (.part .lapic) (oneShot lapic) s with
    | none => rfl
    | some t => exact h.others hwrite hk hdisturbs
  · rfl

theorem fromTemplate_captureState (h : kvm.Faithful disturbs) (hcapture : kvm.captureState ft r = .ok state)
    (hnew : kvm.newVcpu = .ok fresh) : ∃ s deferred, kvm.fromTemplate ft state = .ok (s, deferred) ∧
      kvm.Restored disturbs r s ∧ ∀ k, k ≠ .part .lapic → ¬disturbs (.part .lapic) k →
        kvm.read k (kvm.restartTimer deferred s) = kvm.read k s := by
  obtain ⟨s, htemplate, ⟨o⟩⟩ := h.fromTemplate (captured_of_captureState hcapture) hnew
  exact ⟨s, _, htemplate, o.restored h, fun k hk hdisturbs => h.restartTimer hk hdisturbs _⟩

section StoredVcpu

def storedSize : Component → Nat
  | .regs => 144
  | .sregs => 312
  | .lapic => 1024
  | .fpu => 416
  | .xsave => 4096
  | .xcrs => 392
  | .mpState => 4
  | .vcpuEvents => 64
  | .debugRegs => 128

def storedMsrs : List UInt32 := [0x174, tscMsr]

def storedAccepts : (k : Setting) → k.Value → Bool
  | .part c, data => data.length = storedSize c
  | .msr i, _ => i ∈ storedMsrs
  | .tscKhz, _ => true
  | .cpuid, _ => true

def storedFresh : (k : Setting) → k.Value
  | .part c => List.replicate (storedSize c) 0
  | .msr _ => (0 : UInt64)
  | .tscKhz => (0 : Nat)
  | .cpuid => ([] : List CpuidEntry)

def storedLater : (k : Setting) → k.Value
  | .part c => List.replicate (storedSize c) 7
  | .msr _ => (9 : UInt64)
  | .tscKhz => (2000000 : Nat)
  | .cpuid => ([] : List CpuidEntry)

def storedResets : Setting → Setting → Bool
  | .part .sregs, .part .lapic | .part .regs, .part .vcpuEvents => true
  | _, _ => false

theorem storedAccepts_size {c : Component} {s : (k : Setting) → k.Value} {data : List UInt8}
    (h : (Settings.store storedAccepts storedResets storedFresh).read (.part c) s = some data) :
    data.length = storedSize c := by
  obtain ⟨haccepts, hdata⟩ := Option.ite_none_right_eq_some.mp h
  rw [← Option.some.inj hdata]
  exact of_decide_eq_true haccepts

theorem storedSize_pos (c : Component) : 0 < storedSize c := by
  cases c <;> decide

theorem storedLimit : 64 ≤ 256 := by decide

def storedKvm : Kvm ((k : Setting) → k.Value) where
  toSettings := .store storedAccepts storedResets storedFresh
  createVcpu := some storedFresh
  supportedCpuid := some [⟨1, 0, 0, 0, 0, 0, 0⟩]
  msrIndexList := some storedMsrs
  msrLimit := 256
  kvmclockCtrl := some
  size := storedSize
  size_pos := storedSize_pos
  read_size := storedAccepts_size
  chunk_le := storedLimit

theorem storedKvm_faithful : storedKvm.Faithful fun k k' => storedResets k k' = true where
  toLawful := Settings.store_lawful
  accepted := by
    intro c data r hread s
    refine ⟨_, if_pos ?_⟩
    exact decide_eq_true (storedAccepts_size hread)
  runs := ⟨fun k => if h : k = .part .mpState then h ▸ runnable else storedFresh k, rfl⟩
  clock := by
    intro s t hclock k
    rw [Option.some.inj hclock]

end StoredVcpu

theorem fromTemplate_captureState_stored : ∃ state s deferred,
    storedKvm.fromTemplate Serial.noFloats state = .ok (s, deferred) ∧
      storedKvm.read (.part .lapic) s = some (List.replicate 1024 7) ∧
      storedKvm.read (.part .vcpuEvents) s = some (List.replicate 64 7) ∧
      storedKvm.read (.part .mpState) s = some runnable ∧
      storedKvm.read (.part .regs) (storedKvm.restartTimer deferred s) = some (List.replicate 144 7) := by
  have hread : ∀ c, storedKvm.read (.part c) storedLater = some (List.replicate (storedSize c) 7) :=
    fun c => if_pos (decide_eq_true List.length_replicate)
  obtain ⟨state, hcapture⟩ := exists_captureState Serial.noFloats hread
  obtain ⟨s, deferred, htemplate, hrestored, htimer⟩ := fromTemplate_captureState storedKvm_faithful hcapture rfl
  have hcomponent {c : Component} (hmpState : c ≠ .mpState) (hfpu : c ≠ .fpu)
      (hresets : ∀ k, (Setting.part c).turn < k.turn → ¬storedResets k (.part c) = true) :
      storedKvm.read (.part c) s = some (List.replicate (storedSize c) 7) :=
    (hrestored.component hmpState hfpu hresets).trans (hread c)
  refine ⟨state, s, deferred, htemplate, hcomponent nofun nofun ?_, hcomponent nofun nofun ?_,
    hrestored.runnable ?_, (htimer (.part .regs) nofun nofun).trans (hcomponent nofun nofun ?_)⟩
  all_goals
    intro k hturn hresets
    unfold storedResets at hresets
    split at hresets <;> simp_all [Setting.turn]

end Kvm

end CloneVmm.Vmm
