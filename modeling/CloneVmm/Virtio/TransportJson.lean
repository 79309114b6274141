import CloneVmm.Control.RoundTrip
import CloneVmm.Virtio.Resume

namespace CloneVmm.Virtio

open CloneVmm.Lib CloneVmm.Control.Protocol

variable {F : Type}

structure QueueState.Typed (q : QueueState) : Prop where
  maxSize : q.maxSize < 2 ^ 16
  size : q.size < 2 ^ 16
  descAddr : q.descAddr < 2 ^ 64
  availAddr : q.availAddr < 2 ^ 64
  usedAddr : q.usedAddr < 2 ^ 64

structure MmioTransportState.Typed (state : MmioTransportState) : Prop where
  deviceStatus : state.deviceStatus < 2 ^ 32
  interruptStatus : state.interruptStatus < 2 ^ 32
  driverFeatures : state.driverFeatures.1 < 2 ^ 32 ∧ state.driverFeatures.2 < 2 ^ 32
  queueSel : state.queueSel < 2 ^ 32
  queues : ∀ q ∈ state.queues, q.Typed
  configGeneration : state.configGeneration < 2 ^ 32

def number (n : Nat) : Json F := ofU64 (.ofNat n)

@[simp] theorem floats_number (n : Nat) : (number n : Json F).floats = [] := by simp [number, ofU64, ofNat, Json.floats]

@[simp] theorem depth_number (n : Nat) : (number n : Json F).depth = 0 := by simp [number, ofU64, ofNat, Json.depth]

def readU16 (j : Json F) : Option Nat := nat? (2 ^ 16) j

def readU32 (j : Json F) : Option Nat := nat? (2 ^ 32) j

def readU64 (j : Json F) : Option Nat := nat? (2 ^ 64) j

def readByte (j : Json F) : Option UInt8 := (nat? (2 ^ 8) j).map UInt8.ofNat

def readPair (j : Json F) : Option (Nat × Nat) :=
  match Json.array? readU32 j with
  | some [low, high] => some (low, high)
  | _ => none

namespace QueueState

def toJson (q : QueueState) : Json F :=
  .object [("max_size", number q.maxSize), ("size", number q.size), ("ready", .bool q.ready),
    ("desc_addr", number q.descAddr), ("avail_addr", number q.availAddr), ("used_addr", number q.usedAddr)]

def ofJson : Json F → Option QueueState
  | .object fields => do
    let maxSize ← Json.required readU16 fields "max_size"
    let size ← Json.required readU16 fields "size"
    let ready ← Json.required Json.bool? fields "ready"
    let descAddr ← Json.required readU64 fields "desc_addr"
    let availAddr ← Json.required readU64 fields "avail_addr"
    let usedAddr ← Json.required readU64 fields "used_addr"
    return { maxSize, size, ready, descAddr, availAddr, usedAddr }
  | _ => none

end QueueState

namespace MmioTransportState

def toJson (state : MmioTransportState) : Json F :=
  .object [("device_status", number state.deviceStatus), ("interrupt_status", number state.interruptStatus),
    ("driver_features", .array [number state.driverFeatures.1, number state.driverFeatures.2]),
    ("queue_sel", number state.queueSel), ("queues", .array (state.queues.map QueueState.toJson)),
    ("activated", .bool state.activated), ("config_generation", number state.configGeneration),
    ("device_state", .array (state.deviceState.map fun b => number b.toNat))]

def ofJson : Json F → Option MmioTransportState
  | .object fields => do
    let deviceStatus ← Json.required readU32 fields "device_status"
    let interruptStatus ← Json.required readU32 fields "interrupt_status"
    let driverFeatures ← Json.required readPair fields "driver_features"
    let queueSel ← Json.required readU32 fields "queue_sel"
    let queues ← Json.required (Json.array? QueueState.ofJson) fields "queues"
    let activated ← Json.required Json.bool? fields "activated"
    let configGeneration ← Json.required readU32 fields "config_generation"
    let deviceState ← Json.required (Json.array? readByte) fields "device_state"
    return ⟨deviceStatus, interruptStatus, driverFeatures, queueSel, queues, activated, configGeneration, deviceState⟩
  | _ => none

end MmioTransportState

section Fields

variable {fields : List (String × Json F)} {name : String} {n bound : Nat}

theorem nat?_number (hbound : bound ≤ 2 ^ 64) (hn : n < bound) : nat? bound (number n : Json F) = some n := by
  have hsmall : (UInt64.ofNat n).toNat = n := UInt64.toNat_ofNat_of_lt' (Nat.lt_of_lt_of_le hn hbound)
  have hread := @nat?_ofNat F (UInt64.ofNat n).toNat bound (UInt64.ofNat n).toNat_lt (by rw [hsmall]; exact hn)
  exact hread.trans (congrArg some hsmall)

theorem required_u16 (hn : n < 2 ^ 16) (h : Json.field fields name = some (some (number n))) :
    Json.required readU16 fields name = some n :=
  (Json.required_eq h).trans (nat?_number (by decide) hn)

theorem required_nat32 (hn : n < 2 ^ 32) (h : Json.field fields name = some (some (number n))) :
    Json.required readU32 fields name = some n :=
  (Json.required_eq h).trans (nat?_number (by decide) hn)

theorem required_nat64 (hn : n < 2 ^ 64) (h : Json.field fields name = some (some (number n))) :
    Json.required readU64 fields name = some n :=
  (Json.required_eq h).trans (nat?_number (Nat.le_refl _) hn)

theorem required_bool {b : Bool} (h : Json.field fields name = some (some (.bool b))) :
    Json.required Json.bool? fields name = some b :=
  Json.required_eq h

end Fields

theorem readPair_eq {pair : Nat × Nat} (hlow : pair.1 < 2 ^ 32) (hhigh : pair.2 < 2 ^ 32) :
    readPair (.array [number pair.1, number pair.2] : Json F) = some pair := by
  have hread : Json.array? readU32 (.array ([pair.1, pair.2].map number) : Json F) = some [pair.1, pair.2] := by
    apply Json.array?_map
    rw [List.forall_mem_cons, List.forall_mem_singleton]
    exact ⟨nat?_number (by decide) hlow, nat?_number (by decide) hhigh⟩
  rw [readPair, show [number pair.1, number pair.2] = [pair.1, pair.2].map (@number F) from rfl, hread]

theorem readByte_eq (b : UInt8) : readByte (number b.toNat : Json F) = some b := by
  rw [readByte, nat?_number (by decide) b.toNat_lt, Option.map_some, UInt8.ofNat_toNat]

theorem QueueState.ofJson_toJson {q : QueueState} (h : q.Typed) : ofJson (q.toJson : Json F) = some q := by
  rw [toJson, ofJson, required_u16 h.maxSize rfl, required_u16 h.size rfl, required_bool rfl, required_nat64 h.descAddr rfl,
    required_nat64 h.availAddr rfl, required_nat64 h.usedAddr rfl]
  rfl

theorem MmioTransportState.ofJson_toJson {state : MmioTransportState} (h : state.Typed) :
    ofJson (state.toJson : Json F) = some state := by
  have hqueues : Json.array? QueueState.ofJson (.array (state.queues.map (@QueueState.toJson F))) = some state.queues :=
    Json.array?_map fun q hq => QueueState.ofJson_toJson (h.queues q hq)
  have hdevice : Json.array? readByte (.array (state.deviceState.map fun b => @number F b.toNat)) = some state.deviceState :=
    Json.array?_map fun b _ => readByte_eq b
  rw [toJson, ofJson, required_nat32 h.deviceStatus rfl, required_nat32 h.interruptStatus rfl,
    (Json.required_eq rfl).trans (readPair_eq h.driverFeatures.1 h.driverFeatures.2), required_nat32 h.queueSel rfl,
    (Json.required_eq rfl).trans hqueues, required_bool rfl, required_nat32 h.configGeneration rfl,
    (Json.required_eq rfl).trans hdevice]
  rfl

theorem QueueState.floats_toJson (q : QueueState) : (q.toJson : Json F).floats = [] := by
  simp [toJson, Json.floats, Json.floatsFields]

theorem QueueState.depth_toJson (q : QueueState) : (q.toJson : Json F).depth ≤ 1 := by
  simp only [toJson, depth_number, Json.depth, Json.depthFields]
  omega

namespace MmioTransportState

variable (state : MmioTransportState)

theorem floats_toJson : (state.toJson : Json F).floats = [] := by
  have hqueues : Json.floatsList (state.queues.map (@QueueState.toJson F)) = [] := by
    induction state.queues with
    | nil => rfl
    | cons q qs ih =>
      rw [List.map_cons, Json.floatsList, ih, QueueState.floats_toJson]
      rfl
  have hdevice : Json.floatsList (state.deviceState.map fun b => @number F b.toNat) = [] := by
    induction state.deviceState with
    | nil => rfl
    | cons b bs ih =>
      rw [List.map_cons, Json.floatsList, ih]
      rfl
  simp [toJson, Json.floats, Json.floatsFields, Json.floatsList, hqueues, hdevice]

theorem depth_toJson : (state.toJson : Json F).depth ≤ 127 := by
  have hqueues : Json.depthList (state.queues.map (@QueueState.toJson F)) ≤ 1 := by
    rw [Json.depthList_le]
    intro j hj
    obtain ⟨q, -, rfl⟩ := List.mem_map.mp hj
    exact q.depth_toJson
  have hdevice : Json.depthList (state.deviceState.map fun b => @number F b.toNat) ≤ 0 := by
    rw [Json.depthList_le]
    intro j hj
    obtain ⟨b, -, rfl⟩ := List.mem_map.mp hj
    rw [depth_number]
  simp only [toJson, depth_number, Json.depth, Json.depthFields, Json.depthList]
  omega

end MmioTransportState

def SerdeState.text (ft : JsonText.FloatText F) : SerdeState where
  toVec state := JsonText.toBytes ft state.toJson
  fromSlice data := (JsonText.ofBytes ft 127 data).bind MmioTransportState.ofJson

theorem SerdeState.text_reads (ft : JsonText.FloatText F) {state : MmioTransportState} (h : state.Typed) :
    (SerdeState.text ft).Reads state := by
  have hread : (SerdeState.text ft).fromSlice ((SerdeState.text ft).toVec state) = some state := by
    have hfloats : ∀ x ∈ (state.toJson : Json F).floats, ft.Survives x := by
      rw [state.floats_toJson]
      exact List.forall_mem_nil _
    simp only [SerdeState.text]
    rw [JsonText.ofBytes_toBytes hfloats, if_pos state.depth_toJson, Option.bind_some]
    exact MmioTransportState.ofJson_toJson h
  refine ⟨fun hempty => ?_, hread⟩
  have hnone : (SerdeState.text ft).fromSlice [] = none := rfl
  rw [hempty, hnone] at hread
  cases hread

end CloneVmm.Virtio
