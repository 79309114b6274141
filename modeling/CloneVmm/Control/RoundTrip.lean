import CloneVmm.Control.Protocol
import CloneVmm.Lib.JsonSize

namespace CloneVmm.Control.Protocol

open CloneVmm.Lib

section Numbers

variable {F V : Type}

theorem nat?_ofNat {n bound : Nat} (h : n < 2 ^ 64) (hbound : n < bound) :
    nat? bound (ofNat n h : Json F) = some n := by
  rw [nat?, ofNat, Json.int?, Option.bind_some, if_pos ⟨Int.natCast_nonneg n, Int.ofNat_lt.mpr hbound⟩, Int.toNat_natCast]

theorem u16?_ofU16 (n : UInt16) : u16? (ofU16 n : Json F) = some n := by
  rw [u16?, ofU16, nat?_ofNat _ n.toNat_lt, Option.map_some, UInt16.ofNat_toNat]

theorem u32?_ofU32 (n : UInt32) : u32? (ofU32 n : Json F) = some n := by
  rw [u32?, ofU32, nat?_ofNat _ n.toNat_lt, Option.map_some, UInt32.ofNat_toNat]

theorem u64?_ofU64 (n : UInt64) : u64? (ofU64 n : Json F) = some n := by
  rw [u64?, ofU64, nat?_ofNat _ n.toNat_lt, Option.map_some, UInt64.ofNat_toNat]

theorem i32?_ofI32 (n : Int32) : i32? (ofI32 n : Json F) = some n := by
  have hrange : -2 ^ 31 ≤ n.toInt ∧ n.toInt < 2 ^ 31 := ⟨n.le_toInt, n.toInt_lt⟩
  rw [i32?, ofI32, Json.int?, Option.bind_some, if_pos hrange, Int32.ofInt_toInt]

theorem f64?_ofF64 {serde : SerdeJson F V} {x : F} (h : serde.finite x = true) : f64? serde (ofF64 serde x) = some x := by
  rw [ofF64, if_pos h, f64?]

end Numbers

section Requests

variable {F : Type}

theorem option_string {fields : List (String × Json F)} {name : String} {a : Option String}
    (h : Json.field fields name = some (some (.ofOption .string a))) :
    Json.optional Json.string? fields name = some a :=
  Json.optional_eq (fun _ => rfl) rfl h

theorem option_u32 {fields : List (String × Json F)} {name : String} {a : Option UInt32}
    (h : Json.field fields name = some (some (.ofOption ofU32 a))) : Json.optional u32? fields name = some a :=
  Json.optional_eq u32?_ofU32 rfl h

theorem required_string {fields : List (String × Json F)} {name a : String}
    (h : Json.field fields name = some (some (.string a))) : Json.required Json.string? fields name = some a :=
  Json.required_eq h

theorem required_u32 {fields : List (String × Json F)} {name : String} {a : UInt32}
    (h : Json.field fields name = some (some (ofU32 a))) : Json.required u32? fields name = some a :=
  (Json.required_eq h).trans (u32?_ofU32 a)

theorem required_u64 {fields : List (String × Json F)} {name : String} {a : UInt64}
    (h : Json.field fields name = some (some (ofU64 a))) : Json.required u64? fields name = some a :=
  (Json.required_eq h).trans (u64?_ofU64 a)

theorem defaulted_bool {fields : List (String × Json F)} {name : String} {default a : Bool}
    (h : Json.field fields name = some (some (.bool a))) : Json.defaulted Json.bool? default fields name = some a :=
  Json.defaulted_eq h

theorem readCreateVm_fields (a : Daemon.CreateVm) : readCreateVm (createVmFields a : List (String × Json F)) = some a := by
  rw [readCreateVm, required_string rfl, option_string rfl, required_string rfl, required_u32 rfl, required_u32 rfl,
    option_string rfl, option_string rfl, option_string rfl, option_string rfl, defaulted_bool rfl, option_string rfl,
    defaulted_bool rfl, option_string rfl, option_u32 rfl]
  rfl

theorem readForkVm_fields (a : Daemon.ForkVm) : readForkVm (forkVmFields a : List (String × Json F)) = some a := by
  rw [readForkVm, required_string rfl, defaulted_bool rfl, option_string rfl, option_u32 rfl, option_u32 rfl,
    option_string rfl, option_u32 rfl]
  rfl

theorem readRestoreVm_fields (a : Daemon.RestoreVm) :
    readRestoreVm (restoreVmFields a : List (String × Json F)) = some a := by
  rw [readRestoreVm, required_string rfl, defaulted_bool rfl, option_string rfl, option_string rfl, option_u32 rfl]
  rfl

theorem Request.ofFields_fields (r : Request) : Request.ofFields r.tag (r.fields : List (String × Json F)) = some r := by
  cases r with
  | createVm args =>
    rw [Request.tag, Request.fields, Request.ofFields, readCreateVm_fields]
    rfl
  | destroyVm vmId => rfl
  | vmStatus vmId => rfl
  | listVms => rfl
  | snapshot vmId outputPath => rfl
  | forkVm args =>
    rw [Request.tag, Request.fields, Request.ofFields, readForkVm_fields]
    rfl
  | setBalloon targetMb =>
    rw [Request.tag, Request.fields, Request.ofFields, required_u32 rfl]
    rfl
  | metrics vmId => rfl
  | incrementalSnapshot outputPath baseTemplate => rfl
  | pause => rfl
  | resume => rfl
  | shutdown => rfl
  | liveMigrate destHost destPort =>
    rw [Request.tag, Request.fields, Request.ofFields, required_string rfl, Json.required_eq rfl, u16?_ofU16]
    rfl
  | branch outputDir net sharedDir =>
    rw [Request.tag, Request.fields, Request.ofFields, option_string rfl, defaulted_bool rfl, option_string rfl]
    rfl
  | exec command args =>
    have hargs : Json.array? Json.string? (ofStrings args : Json F) = some args := Json.array?_map fun _ _ => rfl
    rw [Request.tag, Request.fields, Request.ofFields, required_string rfl, Json.required_eq rfl, hargs]
    rfl
  | restoreVm args =>
    rw [Request.tag, Request.fields, Request.ofFields, readRestoreVm_fields]
    rfl

theorem Request.ofJson_toJson (r : Request) : Request.ofJson (r.toJson : Json F) = some r := by
  have htagged : (r.toJson : Json F).tagged "cmd" = some (r.tag, r.fields) := by
    cases r
    all_goals rfl
  rw [Request.ofJson, htagged]
  exact r.ofFields_fields

end Requests

section Responses

variable {F V : Type} {serde : SerdeJson F V}

def ResponseBody.Finite (serde : SerdeJson F V) : ResponseBody F V → Prop
  | vmStatus _ uptimeSecs _ => serde.finite uptimeSecs = true
  | vmList vms => ∀ s ∈ vms, serde.finite s.uptimeSecs = true
  | _ => True

theorem VmSummary.ofJson_toJson {s : VmSummary F} (h : serde.finite s.uptimeSecs = true) :
    VmSummary.ofJson serde (s.toJson serde) = some s := by
  rw [VmSummary.toJson, VmSummary.ofJson, required_string rfl, required_string rfl, Json.required_eq rfl, f64?_ofF64 h]
  rfl

theorem ResponseBody.ofFields_fields (hvalue : ∀ v, serde.toValue (serde.ofValue v) = v) {body : ResponseBody F V}
    (h : body.Finite serde) : ResponseBody.ofFields serde (body.fields serde) = some body := by
  cases body with
  | vmCreated vmId pid =>
    have hread : readVmCreated (fields serde (vmCreated vmId pid)) = some (vmCreated vmId pid : ResponseBody F V) := by
      rw [readVmCreated, required_string rfl, required_u32 rfl]
      rfl
    rw [ofFields, hread]
    rfl
  | execResult exitCode stdout stderr =>
    have hread : readExecResult (fields serde (execResult exitCode stdout stderr)) =
        some (execResult exitCode stdout stderr : ResponseBody F V) := by
      rw [readExecResult, Json.required_eq rfl, i32?_ofI32, required_string rfl, required_string rfl]
      rfl
    rw [ofFields, hread]
    rfl
  | vmStatus state uptimeSecs memoryUsageBytes =>
    have hread : readVmStatus serde (fields serde (vmStatus state uptimeSecs memoryUsageBytes)) =
        some (vmStatus state uptimeSecs memoryUsageBytes) := by
      rw [readVmStatus, required_string rfl, Json.required_eq rfl, f64?_ofF64 h, required_u64 rfl]
      rfl
    rw [ofFields, hread]
    rfl
  | vmList vms =>
    have hread : readVmList serde (fields serde (vmList vms)) = some (vmList vms) := by
      rw [readVmList, Json.required_eq rfl, Json.array?_map fun s hs => VmSummary.ofJson_toJson (h s hs)]
      rfl
    rw [ofFields, hread]
    rfl
  | metrics value =>
    have hread : readMetrics serde (fields serde (metrics value)) = some (metrics value) := by
      rw [readMetrics, Json.required_eq rfl, hvalue]
      rfl
    rw [ofFields, hread]
    rfl
  | snapshotComplete path => rfl
  | status state pid vcpus =>
    have hread : readStatus (fields serde (status state pid vcpus)) = some (status state pid vcpus : ResponseBody F V) := by
      rw [readStatus, required_string rfl, required_u32 rfl, required_u32 rfl]
      rfl
    rw [ofFields, hread]
    rfl
  | migrationComplete totalPagesSent rounds downtimeMs totalTimeMs =>
    have hread : readMigrationComplete (fields serde (migrationComplete totalPagesSent rounds downtimeMs totalTimeMs)) =
        some (migrationComplete totalPagesSent rounds downtimeMs totalTimeMs : ResponseBody F V) := by
      rw [readMigrationComplete, required_u64 rfl, required_u32 rfl, required_u64 rfl, required_u64 rfl]
      rfl
    rw [ofFields, hread]
    rfl
  | branchComplete newVmId newPid pauseDurationMs totalDurationMs =>
    have hread : readBranchComplete (fields serde (branchComplete newVmId newPid pauseDurationMs totalDurationMs)) =
        some (branchComplete newVmId newPid pauseDurationMs totalDurationMs : ResponseBody F V) := by
      rw [readBranchComplete, required_string rfl, required_u32 rfl, required_u64 rfl, required_u64 rfl]
      rfl
    rw [ofFields, hread]
    rfl
  | ack => rfl

def Response.Finite (serde : SerdeJson F V) : Response F V → Prop
  | ok body => body.Finite serde
  | error _ => True

theorem Response.ofJson_toJson (hvalue : ∀ v, serde.toValue (serde.ofValue v) = v) {r : Response F V}
    (h : r.Finite serde) : Response.ofJson serde (r.toJson serde) = some r := by
  cases r with
  | ok body =>
    have htagged : ((Response.ok body).toJson serde).tagged "status" = some ("ok", body.fields serde) := by
      cases body
      all_goals rfl
    rw [ofJson, htagged, Option.bind_some, ResponseBody.ofFields_fields hvalue h]
    rfl
  | error message => rfl

end Responses

/-- `serde_json` refuses what is nested so deep. -/
def recursionLimit : Nat := 128

/-- What `serde_json` has written it reads back, as long as its floating-point numbers survive being printed. -/
structure SerdeJson.Lawful {F V : Type} (serde : SerdeJson F V) (survives : F → Prop) : Prop where
  fromSlice_toVec : ∀ j : Json F, (∀ x ∈ j.floats, survives x) → j.depth < recursionLimit →
    serde.fromSlice (serde.toVec j) = some j
  fromSlice_deep : ∀ j : Json F, (∀ x ∈ j.floats, survives x) → recursionLimit ≤ j.depth →
    serde.fromSlice (serde.toVec j) = none
  toValue_ofValue : ∀ v, serde.toValue (serde.ofValue v) = v

inductive Kind
  | request
  | response

inductive Message (F V : Type)
  | request (r : Request)
  | response (r : Response F V)

inductive Framing
  | async
  | sync

section Messages

variable {F V : Type} (serde : SerdeJson F V)

namespace Message

def kind : Message F V → Kind
  | request _ => .request
  | response _ => .response

def toJson : Message F V → Json F
  | request r => r.toJson
  | response r => r.toJson serde

def Finite : Message F V → Prop
  | request _ => True
  | response r => r.Finite serde

/-- The value of a response with metrics is nested less deep than `serde_json` reads it inside of the response. -/
def Shallow : Message F V → Prop
  | response (.ok (.metrics value)) => (serde.ofValue value).depth + 1 < recursionLimit
  | _ => True

end Message

def Kind.read : Kind → Json F → Option (Message F V)
  | request, j => (Request.ofJson j).map .request
  | response, j => (Response.ofJson serde j).map .response

def Framing.write : Framing → List UInt8 → Json F → Except ProtocolError Unit × List UInt8
  | async => writeFrame serde
  | sync => writeFrameSync serde

def Framing.read {α : Type} : Framing → (Json F → Option α) → List UInt8 → Except ProtocolError α × List UInt8
  | async => readFrame serde
  | sync => readFrameSync serde

structure Transmission (F V : Type) where
  writer : Framing
  reader : Framing
  msg : Message F V

def sent (ts : List (Transmission F V)) : List UInt8 :=
  ts.foldl (fun out t => (t.writer.write serde out (t.msg.toJson serde)).2) []

def received : List (Framing × Kind) → List UInt8 → List (Except ProtocolError (Message F V)) × List UInt8
  | [], input => ([], input)
  | (reader, kind) :: rest, input =>
    let result := reader.read serde (kind.read serde) input
    let more := received rest result.2
    (result.1 :: more.1, more.2)

structure Delivered (ts : List (Transmission F V)) : Prop where
  messages : (received serde (ts.map fun t => (t.reader, t.msg.kind)) (sent serde ts)).1 = ts.map fun t => .ok t.msg
  closed : ∀ (reader : Framing) (kind : Kind), (reader.read serde (kind.read serde (V := V))
    (received serde (ts.map fun t => (t.reader, t.msg.kind)) (sent serde ts)).2).1 = .error .connectionClosed

end Messages

section Streams

variable {F V α : Type} {serde : SerdeJson F V} {survives : F → Prop}

theorem Message.read_toJson (hvalue : ∀ v, serde.toValue (serde.ofValue v) = v) {m : Message F V} (h : m.Finite serde) :
    m.kind.read serde (m.toJson serde) = some m := by
  cases m with
  | request r =>
    rw [kind, Kind.read, toJson, r.ofJson_toJson]
    rfl
  | response r =>
    rw [kind, Kind.read, toJson, Response.ofJson_toJson hvalue h]
    rfl

theorem depth_ofOption {write : α → Json F} (h : ∀ a, (write a).depth = 0) (a : Option α) :
    (Json.ofOption write a).depth = 0 := by
  cases a with
  | none => rfl
  | some a => exact h a

theorem depth_option_string (a : Option String) : (Json.ofOption .string a : Json F).depth = 0 :=
  depth_ofOption (fun _ => rfl) a

theorem depth_option_u32 (a : Option UInt32) : (Json.ofOption ofU32 a : Json F).depth = 0 :=
  depth_ofOption (fun _ => rfl) a

theorem depth_ofF64 (x : F) : (ofF64 serde x).depth = 0 := by
  unfold ofF64
  split
  · rfl
  · rfl

theorem depth_ofStrings (args : List String) : (ofStrings args : Json F).depth = 1 := by
  rw [ofStrings, Json.depth, Nat.add_eq_right, ← Nat.le_zero, Json.depthList_le, List.forall_mem_map]
  exact fun _ _ => Nat.le_refl 0

theorem Request.depth_toJson (r : Request) : (r.toJson : Json F).depth ≤ 2 := by
  have hfields : ∀ f ∈ (r.fields : List (String × Json F)), f.2.depth ≤ 1 := by
    cases r with
    | exec command args =>
      rw [fields, List.forall_mem_cons, List.forall_mem_singleton]
      exact ⟨Nat.zero_le 1, Nat.le_of_eq (depth_ofStrings args)⟩
    | _ =>
      simp [fields, createVmFields, forkVmFields, restoreVmFields, Json.depth, depth_option_string, depth_option_u32,
        ofU32, ofU16, ofNat]
  rw [toJson, Json.depth, Nat.add_le_add_iff_right, Json.depthFields_le, List.forall_mem_cons]
  exact ⟨Nat.zero_le 1, hfields⟩

theorem VmSummary.depth_toJson (s : VmSummary F) : (s.toJson serde).depth = 1 := by
  simp [toJson, Json.depth, Json.depthFields, depth_ofF64]

theorem Message.depth_lt_iff (m : Message F V) : (m.toJson serde).depth < recursionLimit ↔ m.Shallow serde := by
  cases m with
  | request r => exact iff_of_true (Nat.lt_of_le_of_lt r.depth_toJson (by decide)) trivial
  | response r =>
    cases r with
    | error message =>
      refine iff_of_true ?_ trivial
      simp [toJson, Response.toJson, Json.depth, Json.depthFields, recursionLimit]
    | ok body =>
      cases body with
      | metrics value => simp [toJson, Response.toJson, ResponseBody.fields, Json.depth, Json.depthFields, Shallow]
      | vmList vms =>
        have hvms : Json.depthList (vms.map (VmSummary.toJson serde)) ≤ 1 := by
          rw [Json.depthList_le, List.forall_mem_map]
          exact fun s _ => Nat.le_of_eq s.depth_toJson
        refine iff_of_true ?_ trivial
        simp only [toJson, Response.toJson, ResponseBody.fields, Json.depth, Json.depthFields, recursionLimit]
        omega
      | _ =>
        refine iff_of_true ?_ trivial
        simp [toJson, Response.toJson, ResponseBody.fields, Json.depth, Json.depthFields, recursionLimit, depth_ofF64,
          ofU32, ofU64, ofI32, ofNat]

def Message.numbers (serde : SerdeJson F V) : Message F V → List F
  | response (.ok (.vmStatus _ uptimeSecs _)) => [uptimeSecs]
  | response (.ok (.vmList vms)) => vms.map VmSummary.uptimeSecs
  | response (.ok (.metrics value)) => (serde.ofValue value).floats
  | _ => []

theorem floats_ofOption {write : α → Json F} (h : ∀ a, (write a).floats = []) (a : Option α) :
    (Json.ofOption write a).floats = [] := by
  cases a with
  | none => rfl
  | some a => exact h a

theorem floats_option_string (a : Option String) : (Json.ofOption .string a : Json F).floats = [] :=
  floats_ofOption (fun _ => rfl) a

theorem floats_option_u32 (a : Option UInt32) : (Json.ofOption ofU32 a : Json F).floats = [] :=
  floats_ofOption (fun _ => rfl) a

theorem floats_ofStrings (args : List String) : (ofStrings args : Json F).floats = [] := by
  rw [ofStrings, Json.floats]
  induction args with
  | nil => rfl
  | cons arg args ih =>
    rw [List.map_cons, Json.floatsList, ih]
    rfl

theorem Request.floats_toJson (r : Request) : (r.toJson : Json F).floats = [] := by
  cases r
  all_goals
    simp [toJson, fields, createVmFields, forkVmFields, restoreVmFields, Json.floats, Json.floatsFields,
      floats_option_string, floats_option_u32, floats_ofStrings, ofU32, ofU16, ofNat]

theorem mem_floats_ofF64 {x y : F} (h : y ∈ (ofF64 serde x).floats) : y = x := by
  unfold ofF64 at h
  split at h
  · exact List.mem_singleton.mp h
  · cases h

theorem mem_floats_summaries {vms : List (VmSummary F)} {x : F}
    (h : x ∈ Json.floatsList (vms.map (VmSummary.toJson serde))) : x ∈ vms.map VmSummary.uptimeSecs := by
  induction vms with
  | nil => cases h
  | cons s vms ih =>
    rw [List.map_cons, Json.floatsList, List.mem_append] at h
    rw [List.map_cons, List.mem_cons]
    rcases h with h | h
    · have hs : (s.toJson serde).floats = (ofF64 serde s.uptimeSecs).floats := by
        simp [VmSummary.toJson, Json.floats, Json.floatsFields]
      rw [hs] at h
      exact .inl (mem_floats_ofF64 h)
    · exact .inr (ih h)

theorem Message.mem_numbers {m : Message F V} {x : F} (h : x ∈ (m.toJson serde).floats) : x ∈ m.numbers serde := by
  cases m with
  | request r =>
    rw [toJson, r.floats_toJson] at h
    cases h
  | response r =>
    cases r with
    | error message => simp [toJson, Response.toJson, Json.floats, Json.floatsFields] at h
    | ok body =>
      cases body with
      | vmStatus state uptimeSecs memoryUsageBytes =>
        simp only [toJson, Response.toJson, ResponseBody.fields, Json.floats, Json.floatsFields, ofU64, ofNat,
          List.nil_append, List.append_nil] at h
        exact List.mem_singleton.mpr (mem_floats_ofF64 h)
      | vmList vms =>
        simp only [toJson, Response.toJson, ResponseBody.fields, Json.floats, Json.floatsFields, List.nil_append,
          List.append_nil] at h
        exact mem_floats_summaries h
      | metrics value =>
        simp only [toJson, Response.toJson, ResponseBody.fields, Json.floats, Json.floatsFields, List.nil_append,
          List.append_nil] at h
        exact h
      | _ =>
        simp [toJson, Response.toJson, ResponseBody.fields, Json.floats, Json.floatsFields, ofU32, ofU64, ofI32,
          ofNat] at h

theorem readExact_append {n : Nat} {a rest : List UInt8} (h : a.length = n) : readExact n (a ++ rest) = some (a, rest) := by
  rw [readExact, if_neg (by rw [List.length_append]; omega), List.take_left' h, List.drop_left' h]

def frameOf (serde : SerdeJson F V) (m : Message F V) : List UInt8 :=
  leBytes 4 (serde.toVec (m.toJson serde)).length ++ serde.toVec (m.toJson serde)

theorem write_eq (writer : Framing) (out : List UInt8) {m : Message F V}
    (h : (serde.toVec (m.toJson serde)).length ≤ maxFrameSize) :
    writer.write serde out (m.toJson serde) = (.ok (), out ++ frameOf serde m) := by
  have hframe : frame serde out (m.toJson serde) = (.ok (), out ++ frameOf serde m) := by
    have hmod : (serde.toVec (m.toJson serde)).length % 2 ^ 32 = (serde.toVec (m.toJson serde)).length :=
      Nat.mod_eq_of_lt (Nat.lt_of_le_of_lt h (by decide))
    rw [frame, hmod, if_neg (Nat.not_lt.mpr h), frameOf, List.append_assoc]
  cases writer with
  | async => exact hframe
  | sync => exact hframe

theorem write_refused (writer : Framing) (out : List UInt8) {m : Message F V}
    (hlarge : maxFrameSize < (serde.toVec (m.toJson serde)).length)
    (hlt : (serde.toVec (m.toJson serde)).length < 2 ^ 32) : writer.write serde out (m.toJson serde) =
      (.error (.frameTooLarge (serde.toVec (m.toJson serde)).length), out) := by
  have hframe : frame serde out (m.toJson serde) =
      (.error (.frameTooLarge (serde.toVec (m.toJson serde)).length), out) := by
    rw [frame, Nat.mod_eq_of_lt hlt, if_pos hlarge]
  cases writer with
  | async => exact hframe
  | sync => exact hframe

theorem leNat_frameLength {len : Nat} (h : len ≤ maxFrameSize) : leNat (leBytes 4 len) = len := by
  rw [leNat_leBytes, Nat.mod_eq_of_lt (Nat.lt_of_le_of_lt h (by decide))]

theorem unframe_append {α : Type} (read : Json F → Option α) {j : Json F} (rest : List UInt8)
    (hsize : (serde.toVec j).length ≤ maxFrameSize) :
    unframe serde read (leBytes 4 (serde.toVec j).length ++ serde.toVec j ++ rest) =
      (((serde.fromSlice (serde.toVec j)).bind read).elim (.error .json) .ok, rest) := by
  rw [unframe, List.append_assoc, readExact_append (leBytes_length _ _)]
  dsimp only
  rw [leNat_frameLength hsize, if_neg (Nat.not_lt.mpr hsize), readExact_append rfl]
  dsimp only
  cases (serde.fromSlice (serde.toVec j)).bind read with
  | none => rfl
  | some msg => rfl

theorem read_frameOf (hlawful : serde.Lawful survives) (reader : Framing) {m : Message F V} (rest : List UInt8)
    (hsize : (serde.toVec (m.toJson serde)).length ≤ maxFrameSize) (hfinite : m.Finite serde)
    (hsurvives : ∀ x ∈ m.numbers serde, survives x) [Decidable (m.Shallow serde)] :
    reader.read serde (m.kind.read serde) (frameOf serde m ++ rest) =
      (if m.Shallow serde then .ok m else .error .json, rest) := by
  have hfloats : ∀ x ∈ (m.toJson serde).floats, survives x := fun x hx => hsurvives x (Message.mem_numbers hx)
  have hslice : (serde.fromSlice (serde.toVec (m.toJson serde))).bind (m.kind.read serde) =
      if m.Shallow serde then some m else none := by
    by_cases hshallow : m.Shallow serde
    · rw [hlawful.fromSlice_toVec _ hfloats (m.depth_lt_iff.mpr hshallow), if_pos hshallow]
      exact Message.read_toJson hlawful.toValue_ofValue hfinite
    · rw [hlawful.fromSlice_deep _ hfloats (Nat.not_lt.mp fun h => hshallow (m.depth_lt_iff.mp h)), if_neg hshallow]
      rfl
  have hunframe : unframe serde (m.kind.read serde) (frameOf serde m ++ rest) =
      (if m.Shallow serde then .ok m else .error .json, rest) := by
    rw [frameOf, unframe_append _ rest hsize, hslice]
    by_cases hshallow : m.Shallow serde
    · rw [if_pos hshallow, if_pos hshallow]
      rfl
    · rw [if_neg hshallow, if_neg hshallow]
      rfl
  cases reader with
  | async => exact hunframe
  | sync => exact hunframe

theorem read_nil (reader : Framing) (read : Json F → Option α) : reader.read serde read [] = (.error .connectionClosed, []) := by
  cases reader with
  | async => rfl
  | sync => rfl

theorem sent_eq {ts : List (Transmission F V)}
    (h : ∀ t ∈ ts, (serde.toVec (t.msg.toJson serde)).length ≤ maxFrameSize) :
    sent serde ts = ts.flatMap fun t => frameOf serde t.msg := by
  have hfold : ∀ out, ts.foldl (fun out t => (t.writer.write serde out (t.msg.toJson serde)).2) out =
      out ++ ts.flatMap fun t => frameOf serde t.msg := by
    induction ts with
    | nil => exact fun out => (List.append_nil out).symm
    | cons t ts ih =>
      obtain ⟨ht, hts⟩ := List.forall_mem_cons.mp h
      intro out
      rw [List.foldl_cons, ih hts, write_eq t.writer out ht, List.flatMap_cons, List.append_assoc]
  exact hfold []

theorem received_eq (hlawful : serde.Lawful survives) {ts : List (Transmission F V)}
    (hsize : ∀ t ∈ ts, (serde.toVec (t.msg.toJson serde)).length ≤ maxFrameSize)
    (hfinite : ∀ t ∈ ts, t.msg.Finite serde) (hsurvives : ∀ t ∈ ts, ∀ x ∈ t.msg.numbers serde, survives x)
    [DecidablePred (Message.Shallow serde)] :
    received serde (ts.map fun t => (t.reader, t.msg.kind)) (ts.flatMap fun t => frameOf serde t.msg) =
      (ts.map fun t => if t.msg.Shallow serde then .ok t.msg else .error .json, []) := by
  induction ts with
  | nil => rfl
  | cons t ts ih =>
    obtain ⟨hsize, hsizes⟩ := List.forall_mem_cons.mp hsize
    obtain ⟨hfinite, hfinites⟩ := List.forall_mem_cons.mp hfinite
    obtain ⟨hsurvives, hsurvive⟩ := List.forall_mem_cons.mp hsurvives
    rw [List.map_cons, List.flatMap_cons, received, read_frameOf hlawful t.reader _ hsize hfinite hsurvives,
      ih hsizes hfinites hsurvive]
    rfl

theorem Delivered.shallow (hlawful : serde.Lawful survives) {ts : List (Transmission F V)}
    (hsize : ∀ t ∈ ts, (serde.toVec (t.msg.toJson serde)).length ≤ maxFrameSize)
    (hfinite : ∀ t ∈ ts, t.msg.Finite serde) (hsurvives : ∀ t ∈ ts, ∀ x ∈ t.msg.numbers serde, survives x)
    (h : Delivered serde ts) : ∀ t ∈ ts, t.msg.Shallow serde := by
  classical
  intro t ht
  have hmessages := h.messages
  rw [sent_eq hsize, received_eq hlawful hsize hfinite hsurvives] at hmessages
  by_contra hdeep
  have heq := List.map_inj_left.mp hmessages t ht
  rw [if_neg hdeep] at heq
  cases heq

end Streams

/-- All messages arrive as they were sent if and only if none of them is too deep for the reader. One that is too long
for a frame is not written at all. -/
theorem delivered_iff {F V : Type} (serde : SerdeJson F V) (survives : F → Prop) (hlawful : serde.Lawful survives)
    (ts : List (Transmission F V)) (hsize : ∀ t ∈ ts, (serde.toVec (t.msg.toJson serde)).length ≤ maxFrameSize)
    (hfinite : ∀ t ∈ ts, t.msg.Finite serde) (hsurvives : ∀ t ∈ ts, ∀ x ∈ t.msg.numbers serde, survives x) :
    (Delivered serde ts ↔ ∀ t ∈ ts, t.msg.Shallow serde) ∧
    ∀ (writer : Framing) (out : List UInt8) (m : Message F V),
      maxFrameSize < (serde.toVec (m.toJson serde)).length → (serde.toVec (m.toJson serde)).length < 2 ^ 32 →
        writer.write serde out (m.toJson serde) =
          (.error (.frameTooLarge (serde.toVec (m.toJson serde)).length), out) := by
  classical
  have hreceived := received_eq hlawful hsize hfinite hsurvives
  rw [← sent_eq hsize] at hreceived
  refine ⟨⟨fun h => h.shallow hlawful hsize hfinite hsurvives, fun hshallow => ⟨?_, ?_⟩⟩,
    fun writer out m hlarge hlt => write_refused writer out hlarge hlt⟩
  · rw [hreceived]
    exact List.map_congr_left fun t ht => if_pos (hshallow t ht)
  · intro reader kind
    rw [hreceived, read_nil]

section Text

open JsonText (FloatText)

def zeroText : FloatText Unit := ⟨fun _ => ['0', '.', '0'], fun token => if token = ['0', '.', '0'] then some () else none⟩

def textJson : SerdeJson Unit (Json Unit) where
  finite _ := true
  ofInt _ := ()
  ofValue v := v
  toValue j := j
  toVec := JsonText.toBytes zeroText
  fromSlice := JsonText.ofBytes zeroText (recursionLimit - 1)

theorem zeroText_survives (x : Unit) : zeroText.Survives x := by
  cases x
  exact ⟨List.all_eq_true.mp rfl, rfl, rfl, List.cons_ne_nil _ _⟩

theorem textJson_lawful : textJson.Lawful fun _ => True := by
  have hread : ∀ j : Json Unit, textJson.fromSlice (textJson.toVec j) =
      if j.depth ≤ recursionLimit - 1 then some j else none :=
    fun j => JsonText.ofBytes_toBytes fun x _ => zeroText_survives x
  refine ⟨fun j _ hdepth => ?_, fun j _ hdepth => ?_, fun _ => rfl⟩
  · rw [hread, if_pos (Nat.le_sub_one_of_lt hdepth)]
  · rw [hread, if_neg]
    exact fun hle => absurd (Nat.lt_of_le_of_lt hle (by decide)) (Nat.not_lt.mpr hdepth)

def shortStream : List (Transmission Unit (Json Unit)) :=
  [⟨.async, .sync, .request .listVms⟩, ⟨.sync, .async, .response (.ok (.status "paused" 4711 2))⟩,
    ⟨.sync, .async, .response (.ok .ack)⟩]

theorem delivered_short : Delivered textJson shortStream := by
  have hsize : ∀ t ∈ shortStream, (textJson.toVec (t.msg.toJson textJson)).length ≤ maxFrameSize := by
    decide +kernel
  refine (delivered_iff textJson (fun _ => True) textJson_lawful shortStream hsize ?_ fun _ _ _ _ => trivial).1.mpr ?_
  all_goals
    intro t ht
    simp only [shortStream, List.mem_cons, List.not_mem_nil, or_false] at ht
    rcases ht with rfl | rfl | rfl
    all_goals exact trivial

def nested : Nat → Json Unit
  | 0 => .array []
  | n + 1 => .array [nested n]

def deepStream : List (Transmission Unit (Json Unit)) := [⟨.sync, .sync, .response (.ok (.metrics (nested 126)))⟩]

theorem delivered_fails : (∀ t ∈ deepStream, (textJson.toVec (t.msg.toJson textJson)).length ≤ maxFrameSize) ∧
    ¬ Delivered textJson deepStream := by
  have hsize : ∀ t ∈ deepStream, (textJson.toVec (t.msg.toJson textJson)).length ≤ maxFrameSize := by
    have hlength : ∀ j, (textJson.toVec j).length = JsonText.textSize (JsonText.print zeroText j) :=
      JsonText.length_toBytes zeroText
    simp only [hlength]
    decide +kernel
  have hfinite : ∀ t ∈ deepStream, t.msg.Finite textJson := by
    intro t ht
    obtain rfl := List.mem_singleton.mp ht
    exact trivial
  have hdeep : ¬ Message.Shallow textJson (.response (.ok (.metrics (nested 126)))) := by
    change ¬ (nested 126).depth + 1 < recursionLimit
    decide +kernel
  refine ⟨hsize, fun hdelivered => hdeep ?_⟩
  exact hdelivered.shallow textJson_lawful hsize hfinite (fun _ _ _ _ => trivial) _ (List.mem_singleton_self _)

end Text

end CloneVmm.Control.Protocol
