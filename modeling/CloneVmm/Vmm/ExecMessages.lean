import CloneVmm.Control.RoundTrip
import CloneVmm.Lib.JsonSize
import CloneVmm.Lib.Utf8Lossy
import CloneVmm.Vmm.AgentFraming
import CloneVmm.Vmm.ExecPipes

namespace CloneVmm.Vmm.ExecMessages

open CloneVmm.Lib CloneVmm.Control.Protocol
open AgentFraming (VmmMessage GuestMessage Agent maxMessage)
open ExecPipes (Output ExecError maxOutput truncated)
open JsonText (FloatText fieldSize textSize)

variable {F V : Type}

/-- `serde_json` writes no blanks, and escapes only what has to be escaped. -/
def Compact (serde : SerdeJson F V) (ft : FloatText F) : Prop := ∀ j, serde.toVec j = JsonText.toBytes ft j

section Commands

def vmmMessageJson : VmmMessage → Json F
  | .poll => .object [("type", .string "Poll")]
  | .pong pingId => .object [("type", .string "Pong"), ("ping_id", ofU64 (.ofNat pingId))]
  | .shutdown => .object [("type", .string "Shutdown")]
  | .exec command args => .object [("type", .string "Exec"), ("command", .string command), ("args", ofStrings args)]

def readGuestMessage (j : Json F) : Option GuestMessage :=
  (j.tagged "type").bind fun t =>
    match t.1 with
    | "Poll" => some .poll
    | "Shutdown" => some .shutdown
    | "Exec" => do
      let command ← Json.required Json.string? t.2 "command"
      let args ← Json.required (Json.array? Json.string?) t.2 "args"
      return .exec command args
    | _ => none

variable (serde : SerdeJson F V)

def agentJson : AgentFraming.Json where
  toVec msg := serde.toVec (vmmMessageJson msg)
  fromSlice bytes := (serde.fromSlice bytes).bind readGuestMessage

structure Taken (command : String) (args : List String) : Prop where
  fits : ((agentJson serde).toVec (.exec command args)).length ≤ maxMessage
  text : (Agent.start (agentJson serde) [.exec command args]).next (agentJson serde) (.bytes 4) =
    some ⟨(agentJson serde).toVec (.exec command args),
      .body ((agentJson serde).toVec (.exec command args)).length [], []⟩

def Composes (input : List UInt8) : Prop :=
  ∀ command args rest, readFrameSync serde Request.ofJson input = (.ok (.exec command args), rest) →
    Taken serde command args

variable {serde} {ft : FloatText F}

theorem exec_length (hcompact : Compact serde ft) (command : String) (args : List String) :
    ((agentJson serde).toVec (.exec command args)).length =
      (serde.toVec (Request.exec command args).toJson).length + 1 := by
  have hmessage : (agentJson serde).toVec (.exec command args) =
    serde.toVec (vmmMessageJson (.exec command args)) := rfl
  have hcmd : fieldSize ft ("cmd", .string "exec") = 12 := by
    change textSize (JsonText.quote "cmd") + 1 + textSize (JsonText.quote "exec") = 12
    decide
  have htype : fieldSize ft ("type", .string "Exec") = 13 := by
    change textSize (JsonText.quote "type") + 1 + textSize (JsonText.quote "Exec") = 13
    decide
  rw [hmessage, hcompact, hcompact, JsonText.length_toBytes, JsonText.length_toBytes, vmmMessageJson, Request.toJson,
    JsonText.textSize_object, JsonText.textSize_object, Request.tag, Request.fields, hcmd, htype]
  omega

theorem taken_iff (hcompact : Compact serde ft) (command : String) (args : List String) :
    Taken serde command args ↔ (serde.toVec (Request.exec command args).toJson).length < maxFrameSize := by
  have hlength := exec_length hcompact command args
  constructor
  · intro h
    have hfits := h.fits
    unfold maxMessage at hfits
    unfold maxFrameSize
    omega
  · intro h
    unfold maxFrameSize at h
    have hfits : ((agentJson serde).toVec (.exec command args)).length ≤ maxMessage := by
      unfold maxMessage
      omega
    refine ⟨hfits, ?_⟩
    generalize hbytes : (agentJson serde).toVec (.exec command args) = bytes at hlength hfits
    have hstart : Agent.start (agentJson serde) [.exec command args] =
        ⟨leBytes 4 bytes.length ++ bytes, .length, []⟩ := by
      rw [Agent.start, AgentFraming.stream, List.flatMap_singleton, AgentFraming.frame, hbytes]
    have hcount : 0 < 4 ∧ 4 ≤ (leBytes 4 bytes.length ++ bytes).length := by
      rw [List.length_append, leBytes_length]
      omega
    have hlen : leNat ((leBytes 4 bytes.length ++ bytes).take 4) = bytes.length := by
      rw [List.take_left' (leBytes_length 4 _), leNat_frameLength hfits]
    rw [hstart, Agent.next, if_pos hcount]
    dsimp only
    rw [Agent.readLength, if_pos (Nat.le_refl 4), hlen]
    dsimp only
    rw [if_neg (by decide), if_neg (Nat.not_lt.mpr hfits), if_neg (by omega), List.drop_left' (leBytes_length 4 _)]

theorem composes_iff (hcompact : Compact serde ft) (input : List UInt8) :
    Composes serde input ↔ ∀ command args rest,
      readFrameSync serde Request.ofJson input = (.ok (.exec command args), rest) →
        (serde.toVec (Request.exec command args).toJson).length < maxFrameSize := by
  constructor
  · intro h command args rest hread
    exact (taken_iff hcompact command args).mp (h command args rest hread)
  · intro h command args rest hread
    exact (taken_iff hcompact command args).mpr (h command args rest hread)

end Commands

section Frames

variable {serde : SerdeJson F V} {ft : FloatText F} {survives : F → Prop}

theorem read_exec (hlawful : serde.Lawful survives) {command : String} {args : List String} (rest : List UInt8)
    (hsize : (serde.toVec (Request.exec command args).toJson).length ≤ maxFrameSize) :
    readFrameSync serde Request.ofJson (frameOf serde (.request (.exec command args)) ++ rest) =
      (.ok (.exec command args), rest) := by
  have hframe : frameOf serde (.request (.exec command args)) =
      leBytes 4 (serde.toVec (Request.exec command args).toJson).length ++
        serde.toVec (Request.exec command args).toJson := rfl
  have hfloats : ∀ x ∈ ((Request.exec command args).toJson : Json F).floats, survives x := by
    rw [Request.floats_toJson]
    exact List.forall_mem_nil _
  have hslice := hlawful.fromSlice_toVec _ hfloats (Nat.lt_of_le_of_lt (Request.depth_toJson _) (by decide))
  rw [readFrameSync, hframe, unframe_append _ rest hsize, hslice, Option.bind_some, Request.ofJson_toJson]
  rfl

theorem composes_frame_iff (hcompact : Compact serde ft) (hlawful : serde.Lawful survives) {command : String}
    {args : List String} (rest : List UInt8)
    (hsize : (serde.toVec (Request.exec command args).toJson).length ≤ maxFrameSize) :
    Composes serde (frameOf serde (.request (.exec command args)) ++ rest) ↔
      (serde.toVec (Request.exec command args).toJson).length ≠ maxFrameSize := by
  have hread := read_exec hlawful rest hsize
  rw [composes_iff hcompact, hread]
  constructor
  · intro h
    exact Nat.ne_of_lt (h command args rest rfl)
  · intro hne command' args' rest' heq
    obtain ⟨rfl, rfl⟩ := Request.exec.inj (Except.ok.inj (Prod.mk.inj heq).1)
    exact Nat.lt_of_le_of_ne hsize hne

end Frames

/-- The text of an error of `std::io`. -/
def errorText : ExecError → String
  | .timedOut => "command timed out after 30s"
  | .notStarted text => text

structure ExecResult where
  exitCode : Int32
  stdout : String
  stderr : String
  deriving DecidableEq

/-- What the agent answers; a child that a signal ended has no code. -/
def execResult : Except ExecError Output → ExecResult
  | .ok output =>
    ⟨output.code.getD (-1), Utf8Lossy.fromUtf8Lossy output.stdout, Utf8Lossy.fromUtf8Lossy output.stderr⟩
  | .error e => ⟨-1, "", "Failed to execute: " ++ errorText e⟩

inductive AgentMessage (F : Type)
  | heartbeat (active : Bool) (loadAvg1m memPressurePct memAvailablePct : F) (processCount : UInt32)
      (uptimeSecs pingId : UInt64)
  | ready
  | execResult (result : ExecResult)

section Results

variable (serde : SerdeJson F V)

def execResultJson (result : ExecResult) : Json F :=
  .object [("type", .string "ExecResult"), ("exit_code", ofI32 result.exitCode), ("stdout", .string result.stdout),
    ("stderr", .string result.stderr)]

def readHeartbeat (fields : List (String × Json F)) : Option (AgentMessage F) := do
  let active ← Json.required Json.bool? fields "active"
  let loadAvg1m ← Json.required (f64? serde) fields "load_avg_1m"
  let memPressurePct ← Json.required (f64? serde) fields "mem_pressure_pct"
  let memAvailablePct ← Json.defaulted (f64? serde) (serde.ofInt 100) fields "mem_available_pct"
  let processCount ← Json.required u32? fields "process_count"
  let uptimeSecs ← Json.required u64? fields "uptime_secs"
  let pingId ← Json.defaulted u64? 0 fields "ping_id"
  return .heartbeat active loadAvg1m memPressurePct memAvailablePct processCount uptimeSecs pingId

def readExecResult (fields : List (String × Json F)) : Option (AgentMessage F) := do
  let exitCode ← Json.required i32? fields "exit_code"
  let stdout ← Json.required Json.string? fields "stdout"
  let stderr ← Json.required Json.string? fields "stderr"
  return .execResult ⟨exitCode, stdout, stderr⟩

def readAgentMessage (j : Json F) : Option (AgentMessage F) :=
  (j.tagged "type").bind fun t =>
    match t.1 with
    | "Heartbeat" => readHeartbeat serde t.2
    | "Ready" => some .ready
    | "ExecResult" => readExecResult t.2
    | _ => none

def sendMessage (j : Json F) : List UInt8 := leBytes 4 (serde.toVec j).length ++ serde.toVec j

inductive Handled (F : Type)
  | disconnected
  | unreadable (rest : List UInt8)
  | message (msg : AgentMessage F) (rest : List UInt8)

def handleClient (input : List UInt8) : Handled F :=
  match readExact 4 input with
  | none => .disconnected
  | some (lenBuf, rest) =>
    let len := leNat lenBuf
    if len > maxMessage then .disconnected
    else
      match readExact len rest with
      | none => .disconnected
      | some (body, rest) =>
        match (serde.fromSlice body).bind (readAgentMessage serde) with
        | none => .unreadable rest
        | some msg => .message msg rest

def execResponse (result : ExecResult) : Response F V := .ok (.execResult result.exitCode result.stdout result.stderr)

structure Fits (result : ExecResult) : Prop where
  message : (serde.toVec (execResultJson result)).length ≤ maxMessage
  handled : ∀ rest,
    handleClient serde (sendMessage serde (execResultJson result) ++ rest) = .message (.execResult result) rest
  response : (serde.toVec ((execResponse result : Response F V).toJson serde)).length ≤ maxFrameSize
  written : ∀ out, writeFrameSync serde out ((execResponse result : Response F V).toJson serde) =
    (.ok (), out ++ frameOf serde (.response (execResponse result)))

variable {serde} {ft : FloatText F} {survives : F → Prop}

theorem natAbs_i32 (n : Int32) : n.toInt.natAbs < 10 ^ 10 := by
  have hlower := n.le_toInt
  have hupper := n.toInt_lt
  omega

theorem textSize_quote_lossy (bytes : List UInt8) :
    textSize (JsonText.quote (Utf8Lossy.fromUtf8Lossy (bytes.take maxOutput))) ≤ 6 * 65536 + 2 := by
  have hquote := JsonText.textSize_quote_le (Utf8Lossy.fromUtf8Lossy (bytes.take maxOutput))
  have hlossy := Utf8Lossy.length_fromUtf8Lossy_le (bytes.take maxOutput)
  have htake := List.length_take_le maxOutput bytes
  unfold maxOutput at *
  omega

theorem fields_length (hcompact : Compact serde ft) (key tag : String) (result : ExecResult)
    (hstdout : textSize (JsonText.quote result.stdout) ≤ 6 * 65536 + 2)
    (hstderr : textSize (JsonText.quote result.stderr) ≤ 6 * 65536 + 2)
    (htag : textSize (JsonText.quote key) + textSize (JsonText.quote tag) ≤ 100) :
    (serde.toVec (.object [(key, .string tag), ("exit_code", ofI32 result.exitCode), ("stdout", .string result.stdout),
      ("stderr", .string result.stderr)])).length ≤ 2 ^ 20 := by
  have hcode := JsonText.textSize_intText_le (by decide) (natAbs_i32 result.exitCode)
  have hnames : textSize (JsonText.quote "exit_code") = 11 ∧ textSize (JsonText.quote "stdout") = 8 ∧
      textSize (JsonText.quote "stderr") = 8 := by decide
  rw [hcompact, JsonText.length_toBytes, JsonText.textSize_object]
  simp only [fieldSize, ofI32, JsonText.print, List.map_cons, List.map_nil, List.sum_cons, List.sum_nil,
    List.length_cons, List.length_nil]
  omega

theorem readAgentMessage_execResult (result : ExecResult) :
    readAgentMessage serde (execResultJson result : Json F) = some (.execResult result) := by
  have htagged : (execResultJson result : Json F).tagged "type" = some ("ExecResult", [
    ("exit_code", ofI32 result.exitCode), ("stdout", .string result.stdout),
    ("stderr", .string result.stderr)]) := rfl
  rw [readAgentMessage, htagged, Option.bind_some]
  dsimp only
  rw [readExecResult, Json.required_eq rfl, i32?_ofI32, required_string rfl, required_string rfl]
  rfl

theorem handleClient_sendMessage (hlawful : serde.Lawful survives) (result : ExecResult)
    (hsize : (serde.toVec (execResultJson result)).length ≤ maxMessage) (rest : List UInt8) :
    handleClient serde (sendMessage serde (execResultJson result) ++ rest) = .message (.execResult result) rest := by
  have hfloats : ∀ x ∈ (execResultJson result : Json F).floats, survives x := List.forall_mem_nil _
  have hdepth : (execResultJson result : Json F).depth < recursionLimit := by
    change 1 < 128
    decide
  have hslice := hlawful.fromSlice_toVec _ hfloats hdepth
  rw [handleClient, sendMessage, List.append_assoc, readExact_append (leBytes_length _ _)]
  dsimp only
  rw [leNat_frameLength hsize, if_neg (Nat.not_lt.mpr hsize), readExact_append rfl]
  dsimp only
  rw [hslice, Option.bind_some, readAgentMessage_execResult]

/-- Whatever the child has written, its result is small enough for both ways. -/
theorem execResult_fits (hcompact : Compact serde ft) (hlawful : serde.Lawful survives) (code : Option Int32)
    (stdout stderr : List UInt8) : Fits serde (execResult (.ok (truncated code stdout stderr))) := by
  have hstdout := textSize_quote_lossy stdout
  have hstderr := textSize_quote_lossy stderr
  have hmessage := fields_length hcompact "type" "ExecResult" (execResult (.ok (truncated code stdout stderr)))
    hstdout hstderr (by decide)
  have hresponse := fields_length hcompact "status" "ok" (execResult (.ok (truncated code stdout stderr)))
    hstdout hstderr (by decide)
  generalize execResult (.ok (truncated code stdout stderr)) = result at hmessage hresponse
  refine ⟨hmessage, handleClient_sendMessage hlawful result hmessage, hresponse, fun out => ?_⟩
  have hwritten : Framing.sync.write serde out (Message.toJson serde (.response (execResponse result))) =
    (.ok (), out ++ frameOf serde (.response (execResponse result))) := write_eq .sync out hresponse
  exact hwritten

end Results

section Text

def listStream : List UInt8 := frameOf textJson (.request (.exec "ls" ["-l", "/"]))

theorem compact_textJson : Compact textJson zeroText := fun _ => rfl

theorem composes_list : Composes textJson listStream := by
  have hsize : (textJson.toVec (Request.exec "ls" ["-l", "/"]).toJson).length < maxFrameSize := by decide
  have hread := read_exec textJson_lawful [] hsize.le
  rw [List.append_nil] at hread
  refine (composes_iff compact_textJson listStream).mpr fun command args rest heq => ?_
  rw [listStream, hread] at heq
  obtain ⟨rfl, rfl⟩ := Request.exec.inj (Except.ok.inj (Prod.mk.inj heq).1)
  exact hsize

def nameOf (n : Nat) : String := String.ofList (List.replicate n 'a')

theorem exec_nameOf_length (n : Nat) : (textJson.toVec (Request.exec (nameOf n) []).toJson).length = n + 37 := by
  have hcmd : fieldSize zeroText ("cmd", .string "exec") = 12 := by decide
  have hargs : fieldSize zeroText ("args", ofStrings []) = 9 := by decide
  have hcommand : textSize (JsonText.quote "command") = 9 := by decide
  have hname : textSize (JsonText.quote (nameOf n)) = n + 2 := by
    rw [JsonText.textSize_quote, nameOf, String.toList_ofList]
    induction n with
    | zero => rfl
    | succ n ih =>
      have ha : textSize (JsonText.escape 'a') = 1 := by decide
      rw [List.replicate_succ, List.flatMap_cons, JsonText.textSize_append, ha]
      omega
  have hfield : fieldSize zeroText ("command", .string (nameOf n)) = n + 12 := by
    rw [fieldSize, JsonText.print, hcommand, hname]
    omega
  rw [compact_textJson, JsonText.length_toBytes, Request.toJson, JsonText.textSize_object, Request.tag, Request.fields,
    List.map_cons, List.map_singleton, hcmd, hfield, hargs]
  simp only [List.sum_cons, List.sum_nil, List.length_cons, List.length_nil]
  omega

theorem composes_fails : ∃ input command args rest,
    readFrameSync textJson Request.ofJson input = (.ok (.exec command args), rest) ∧ ¬ Taken textJson command args := by
  obtain ⟨n, hn⟩ : ∃ n, n + 37 = maxFrameSize := ⟨1048539, rfl⟩
  have hlength := (exec_nameOf_length n).trans hn
  refine ⟨_, nameOf n, [], [], read_exec textJson_lawful [] hlength.le, fun h => ?_⟩
  have hlt := (taken_iff compact_textJson (nameOf n) []).mp h
  rw [hlength] at hlt
  exact Nat.lt_irrefl _ hlt

theorem execResult_fits_escaped :
    Fits textJson (execResult (.ok (truncated (some 3) [0x00, 0xE2, 0x82] [0x22]))) :=
  execResult_fits compact_textJson textJson_lawful (some 3) [0x00, 0xE2, 0x82] [0x22]

end Text

end CloneVmm.Vmm.ExecMessages
