import CloneVmm.Boot.Compaction
import CloneVmm.Control.RoundTrip
import CloneVmm.Lib.Settings

/-!
`vmm/vcpu.rs`: the state of a vCPU as it is captured for a template, and a vCPU of a new process that is given this state.
KVM is a parameter, with the settings of a vCPU that its calls read and write.
-/

namespace CloneVmm.Vmm

open CloneVmm.Lib CloneVmm.Boot CloneVmm.Boot.SnapshotHost CloneVmm.Control.Protocol

/-- The structures of the KVM API that have calls of their own. -/
inductive Component
  | regs | sregs | lapic | fpu | xsave | xcrs | mpState | vcpuEvents | debugRegs
  deriving DecidableEq

def Component.name : Component → String
  | .regs => "regs"
  | .sregs => "sregs"
  | .lapic => "lapic"
  | .fpu => "fpu"
  | .xsave => "xsave"
  | .xcrs => "xcrs"
  | .mpState => "mp_state"
  | .vcpuEvents => "vcpu_events"
  | .debugRegs => "debug_regs"

structure CpuidEntry where
  function : UInt32
  index : UInt32
  flags : UInt32
  eax : UInt32
  ebx : UInt32
  ecx : UInt32
  edx : UInt32

inductive Setting
  | part (c : Component)
  | msr (index : UInt32)
  | tscKhz
  | cpuid
  deriving DecidableEq

abbrev Setting.Value : Setting → Type
  | .part _ => List UInt8
  | .msr _ => UInt64
  | .tscKhz => Nat
  | .cpuid => List CpuidEntry

/-- One call reads or writes at most `msrLimit` MSRs. -/
structure Kvm (σ : Type) extends Settings σ Setting Setting.Value where
  createVcpu : Option σ
  supportedCpuid : Option (List CpuidEntry)
  msrIndexList : Option (List UInt32)
  msrLimit : Nat
  kvmclockCtrl : σ → Option σ
  size : Component → Nat
  size_pos : ∀ c, 0 < size c
  read_size : ∀ {c : Component} {s : σ} {data : List UInt8}, read (.part c) s = some data → data.length = size c
  chunk_le : 64 ≤ msrLimit

abbrev MsrEntry := UInt32 × UInt64

def tscMsr : UInt32 := 0x10

def tscDeadlineMsr : UInt32 := 0x6E0

section Text

variable {F : Type} (ft : JsonText.FloatText F)

def msrJson (e : MsrEntry) : Json F := .array [ofU32 e.1, ofU64 e.2]

def readMsr : Json F → Option MsrEntry
  | .array [index, data] => do
    let index ← u32? index
    let data ← u64? data
    return (index, data)
  | _ => none

def msrsToVec (entries : List MsrEntry) : List UInt8 := JsonText.toBytes ft (.array (entries.map msrJson))

def msrsFromSlice (data : List UInt8) : Option (List MsrEntry) :=
  (JsonText.ofBytes ft 127 data).bind (Json.array? readMsr)

def cpuidToVec (entries : List CpuidEntry) : List UInt8 :=
  JsonText.toBytes ft (.array (entries.map fun e =>
    .array ([e.function, e.index, e.flags, e.eax, e.ebx, e.ecx, e.edx].map ofU32)))

theorem readMsr_msrJson (e : MsrEntry) : readMsr (msrJson e : Json F) = some e := by
  rw [msrJson, readMsr, u32?_ofU32, u64?_ofU64]
  rfl

theorem msrsFromSlice_msrsToVec (entries : List MsrEntry) : msrsFromSlice ft (msrsToVec ft entries) = some entries := by
  have hfloats : ∀ x ∈ (Json.array (entries.map msrJson) : Json F).floats, ft.Survives x := by
    have hnone : Json.floatsList (entries.map (@msrJson F)) = [] := by
      induction entries with
      | nil => rfl
      | cons e es ih =>
        rw [List.map_cons, Json.floatsList, ih]
        rfl
    rw [Json.floats, hnone]
    exact List.forall_mem_nil _
  have hdepth : (Json.array (entries.map msrJson) : Json F).depth ≤ 127 := by
    have hentries : Json.depthList (entries.map (@msrJson F)) ≤ 1 := by
      rw [Json.depthList_le]
      intro j hj
      obtain ⟨e, -, rfl⟩ := List.mem_map.mp hj
      exact Nat.le_refl 1
    rw [Json.depth]
    omega
  rw [msrsFromSlice, msrsToVec, JsonText.ofBytes_toBytes hfloats, if_pos hdepth, Option.bind_some]
  exact Json.array?_map fun e _ => readMsr_msrJson e

theorem msrsToVec_ne_nil (entries : List MsrEntry) : msrsToVec ft entries ≠ [] := by
  intro hempty
  have hread := msrsFromSlice_msrsToVec ft entries
  rw [hempty] at hread
  cases hread

end Text

namespace Kvm

variable {σ F : Type} (kvm : Kvm σ) (ft : JsonText.FloatText F)

def msrs : Settings σ UInt32 fun _ => UInt64 := kvm.toSettings.comap .msr

/-- KVM stops at the first MSR that it cannot read. -/
def getMsrs (s : σ) (indices : List UInt32) : List MsrEntry :=
  if indices.length ≤ kvm.msrLimit then (kvm.msrs.readFirst s indices).map fun e => (e.1, e.2) else []

def msrIndices : Option (List UInt32) :=
  kvm.msrIndexList.map fun indices => if tscDeadlineMsr ∈ indices then indices else indices ++ [tscDeadlineMsr]

def chunks (indices : List UInt32) : List (List UInt32) :=
  (List.range ((indices.length + 63) / 64)).map fun i => (indices.drop (64 * i)).take 64

def captureMsrs (s : σ) : Option (List MsrEntry) :=
  kvm.msrIndices.map fun indices =>
    let allEntries := (chunks indices).flatMap (kvm.getMsrs s)
    if allEntries.any fun e => e.1 == tscDeadlineMsr then allEntries else allEntries ++ [(tscDeadlineMsr, 0)]

def captureState (s : σ) : Except String VcpuState := do
  let regs ← orError "get kvm_regs" (kvm.read (.part .regs) s)
  let sregs ← orError "get kvm_sregs" (kvm.read (.part .sregs) s)
  let lapic ← orError "get LAPIC" (kvm.read (.part .lapic) s)
  let fpu ← orError "get FPU" (kvm.read (.part .fpu) s)
  let xsave ← orError "get XSAVE" (kvm.read (.part .xsave) s)
  let xcrs ← orError "get XCRs" (kvm.read (.part .xcrs) s)
  let mpState ← orError "get MP state" (kvm.read (.part .mpState) s)
  let vcpuEvents ← orError "get vCPU events" (kvm.read (.part .vcpuEvents) s)
  let debugRegs ← orError "get debug regs" (kvm.read (.part .debugRegs) s)
  return { regs, sregs, lapic, fpu, xsave, xcrs, mpState, vcpuEvents, debugRegs
           tscKhz := (kvm.read .tscKhz s).getD 0
           msrs := ((kvm.captureMsrs s).map (msrsToVec ft)).getD []
           cpuid := ((kvm.read .cpuid s).map (cpuidToVec ft)).getD [] }

def bit (n : UInt32) : UInt32 := 1 <<< n

def templateCpuid (e : CpuidEntry) : CpuidEntry :=
  let e := if e.function = 1 then { e with edx := (e.edx ||| bit 9) &&& ~~~bit 7 &&& ~~~bit 14 } else e
  if e.function = 7 ∧ e.index = 0 then { e with ecx := e.ecx &&& ~~~bit 16 } else e

def newVcpu : Except String σ := do
  let s ← orError "Failed to create vCPU" kvm.createVcpu
  let cpuid ← orError "Failed to get supported CPUID" kvm.supportedCpuid
  orError "Failed to set CPUID" (kvm.write .cpuid (cpuid.map templateCpuid) s)

def setPart (c : Component) (data : List UInt8) (s : σ) : Except String σ :=
  orError ("set " ++ c.name) (kvm.write (.part c) data s)

def restore (c : Component) (data : List UInt8) (s : σ) : Except String σ :=
  if data.length = kvm.size c then kvm.setPart c data s
  else .error (c.name ++ " size mismatch: got " ++ toString data.length ++ ", expected " ++ toString (kvm.size c))

def restoreIfAny (c : Component) (data : List UInt8) (s : σ) : Except String σ :=
  if data.isEmpty then .ok s else kvm.restore c data s

def restoreXsave (state : VcpuState) (s : σ) : Except String σ :=
  if state.xsave.isEmpty then kvm.restoreIfAny .fpu state.fpu s
  else if state.xsave.length = kvm.size .xsave then kvm.setPart .xsave state.xsave s
  else .ok s

/-- KVM stops at the first MSR that it refuses. -/
def setMsrs (entries : List MsrEntry) (s : σ) : σ × Nat :=
  if entries.length ≤ kvm.msrLimit then kvm.msrs.writeFirst (entries.map fun e => ⟨e.1, e.2⟩) s else (s, 0)

def preRestoreTsc (entries : List MsrEntry) (s : σ) : σ :=
  let tscEntries := entries.filter fun e => e.1 = tscMsr
  if tscEntries.isEmpty then s else (kvm.setMsrs tscEntries s).1

def pvZero (e : MsrEntry) : Bool := 0x4b564d00 ≤ e.1 && e.1 ≤ 0x4b564d07 && e.2 == 0

def restorable (entries : List MsrEntry) : List MsrEntry :=
  let tscVal := ((entries.find? fun e => e.1 = tscMsr).map Prod.snd).getD 0
  let fixed := entries.map fun e => if e.1 = tscDeadlineMsr ∧ e.2 = 0 ∧ 0 < tscVal then (e.1, tscVal) else e
  (fixed.filter fun e => e.1 ≠ tscDeadlineMsr).filter fun e => !pvZero e

def runnable : List UInt8 := [0, 0, 0, 0]

def fromTemplate (state : VcpuState) : Except String (σ × Option UInt64) := do
  let s ← kvm.newVcpu
  let s ← kvm.setPart .mpState runnable s
  let s ← kvm.restore .regs state.regs s
  let s ← kvm.restore .sregs state.sregs s
  let s ← kvm.restoreXsave state s
  let s ← kvm.restoreIfAny .xcrs state.xcrs s
  let s ← kvm.restoreIfAny .debugRegs state.debugRegs s
  let entries := if state.msrs.isEmpty then none else msrsFromSlice ft state.msrs
  let s := (entries.map (kvm.preRestoreTsc · s)).getD s
  let s ← kvm.restoreIfAny .lapic state.lapic s
  let s := (entries.map fun entries => (kvm.setMsrs (restorable entries) s).1).getD s
  let s ← kvm.restoreIfAny .vcpuEvents state.vcpuEvents s
  let s := if 0 < state.tscKhz then (kvm.write .tscKhz state.tscKhz s).getD s else s
  let s := (kvm.kvmclockCtrl s).getD s
  return (s, entries.map fun _ => 1)

def oneShot (lapic : List UInt8) : List UInt8 :=
  let lvt := leNat ((lapic.drop 0x320).take 4)
  let vector := lvt &&& 0xFF
  let lapic :=
    if vector ≠ 0 ∧ lvt >>> 17 &&& 3 = 2 then copyFromSlice lapic 0x320 (leBytes 4 vector) else lapic
  copyFromSlice lapic 0x380 (leBytes 4 100)

def restartTimer (deferred : Option UInt64) (s : σ) : σ :=
  match deferred, kvm.read (.part .lapic) s with
  | some _, some lapic => (kvm.write (.part .lapic) (oneShot lapic) s).getD s
  | _, _ => s

end Kvm

end CloneVmm.Vmm
