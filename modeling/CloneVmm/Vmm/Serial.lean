import CloneVmm.Lib.JsonText
import CloneVmm.Lib.Run

/-!
`vmm/serial.rs`: the registers of COM1, its input and output, and how its state is written to a snapshot and read from
one. Standard output and an attached console get the same bytes.
-/

namespace CloneVmm.Vmm

open CloneVmm.Lib

structure Serial where
  data : UInt8
  ier : UInt8
  iir : UInt8
  lcr : UInt8
  mcr : UInt8
  lsr : UInt8
  msr : UInt8
  scr : UInt8
  inputBuffer : List UInt8
  outputBuffer : List UInt8
  dlab : Bool
  divisorLow : UInt8
  divisorHigh : UInt8
  deriving DecidableEq

/-- `serde_json`, for values and their text. -/
structure SerdeValue (F : Type) where
  toBytes : Json F → List UInt8
  fromSlice : List UInt8 → Option (Json F)

namespace Serial

def new : Serial where
  data := 0
  ier := 0
  iir := 0xC1
  lcr := 0
  mcr := 0
  lsr := 0x60
  msr := 0
  scr := 0
  inputBuffer := []
  outputBuffer := []
  dlab := false
  divisorLow := 0
  divisorHigh := 0

def updateIir (s : Serial) : Serial :=
  let fifoBits := s.iir &&& 0xC0
  if s.ier &&& 0x01 ≠ 0 ∧ s.inputBuffer ≠ [] then { s with iir := fifoBits ||| 0x04 }
  else if s.ier &&& 0x02 ≠ 0 then { s with iir := fifoBits ||| 0x02 }
  else { s with iir := fifoBits ||| 0x01 }

def readData (s : Serial) : Serial :=
  let rest := s.inputBuffer.tail
  { s with inputBuffer := rest, lsr := if rest = [] then s.lsr &&& ~~~0x01 else s.lsr }.updateIir

def lineStatus (s : Serial) : UInt8 := (if s.inputBuffer ≠ [] then s.lsr ||| 0x01 else s.lsr &&& ~~~0x01) ||| 0x60

def read (s : Serial) (portOffset : Nat) : UInt8 × Serial :=
  match portOffset with
  | 0 => if s.dlab then (s.divisorLow, s) else (s.inputBuffer.headD 0, s.readData)
  | 1 => (if s.dlab then s.divisorHigh else s.ier, s)
  | 2 => (s.iir, if s.iir &&& 0x0F = 0x02 then s.updateIir else s)
  | 3 => (s.lcr, s)
  | 4 => (s.mcr, s)
  | 5 => (s.lineStatus, s)
  | 6 => (s.msr, s)
  | 7 => (s.scr, s)
  | _ => (0, s)

def writeData (s : Serial) (value : UInt8) : List UInt8 × Serial :=
  let output := s.outputBuffer ++ [value]
  if value = 0x0A ∨ 256 ≤ output.length then (output, { s with outputBuffer := [] }.updateIir)
  else ([], { s with outputBuffer := output }.updateIir)

def write (s : Serial) (portOffset : Nat) (value : UInt8) : List UInt8 × Serial :=
  match portOffset with
  | 0 => if s.dlab then ([], { s with divisorLow := value }) else s.writeData value
  | 1 => ([], if s.dlab then { s with divisorHigh := value } else { s with ier := value &&& 0x0F }.updateIir)
  | 2 => ([], { s with iir := if value &&& 0x01 ≠ 0 then s.iir ||| 0xC0 else s.iir &&& ~~~0xC0 })
  | 3 => ([], { s with lcr := value, dlab := value &&& 0x80 != 0 })
  | 4 => ([], { s with mcr := value })
  | 7 => ([], { s with scr := value })
  | _ => ([], s)

def enqueueInput (s : Serial) (byte : UInt8) : Serial :=
  let s := { s with inputBuffer := s.inputBuffer ++ [byte], lsr := s.lsr ||| 0x01 }
  if s.ier &&& 0x01 ≠ 0 then s.updateIir else s

def interruptPending (s : Serial) : Bool := s.iir &&& 0x01 == 0

section Snapshot

variable {F : Type}

theorem byte_upper (b : UInt8) : (b.toNat : Int) < 2 ^ 64 := by
  have hlt := b.toNat_lt
  omega

theorem byte_lower (b : UInt8) : -2 ^ 63 ≤ (b.toNat : Int) := by
  omega

def ofByte (b : UInt8) : Json F := .int ⟨b.toNat, byte_lower b, byte_upper b⟩

def value (s : Serial) : Json F :=
  .object [("data", ofByte s.data), ("divisor_high", ofByte s.divisorHigh), ("divisor_low", ofByte s.divisorLow),
    ("dlab", .bool s.dlab), ("ier", ofByte s.ier), ("iir", ofByte s.iir),
    ("input_buffer", .array (s.inputBuffer.map ofByte)), ("lcr", ofByte s.lcr), ("lsr", ofByte s.lsr),
    ("mcr", ofByte s.mcr), ("msr", ofByte s.msr), ("scr", ofByte s.scr)]

def snapshotState (serde : SerdeValue F) (s : Serial) : List UInt8 := serde.toBytes s.value

def member (name : String) : Json F → Option (Json F)
  | .object fields => (fields.find? fun f => f.1 = name).map Prod.snd
  | _ => none

def asU64 : Json F → Option Nat
  | .int n => if 0 ≤ n.val then some n.val.toNat else none
  | _ => none

def asArray : Json F → Option (List (Json F))
  | .array xs => some xs
  | _ => none

def getByte (state : Json F) (name : String) : UInt8 := .ofNat (((member name state).bind asU64).getD 0)

def getBool (state : Json F) (name : String) : Bool := ((member name state).bind Json.bool?).getD false

def getBytes (state : Json F) (name : String) : List UInt8 :=
  (((member name state).bind asArray).map fun a => a.filterMap fun v => (asU64 v).map UInt8.ofNat).getD []

def restoreState (serde : SerdeValue F) (s : Serial) (data : List UInt8) : Serial :=
  if data = [] then s
  else
    match serde.fromSlice data with
    | none => s
    | some state =>
      { data := getByte state "data"
        ier := getByte state "ier"
        iir := getByte state "iir"
        lcr := getByte state "lcr"
        mcr := getByte state "mcr"
        lsr := getByte state "lsr"
        msr := getByte state "msr"
        scr := getByte state "scr"
        dlab := getBool state "dlab"
        divisorLow := getByte state "divisor_low"
        divisorHigh := getByte state "divisor_high"
        inputBuffer := getBytes state "input_buffer"
        outputBuffer := [] }

structure Reads (serde : SerdeValue F) : Prop where
  read : ∀ s : Serial, serde.fromSlice (serde.toBytes s.value) = some s.value
  nonempty : ∀ s : Serial, serde.toBytes s.value ≠ []

theorem asU64_ofByte (b : UInt8) : asU64 (ofByte b : Json F) = some b.toNat := by
  rw [ofByte, asU64, if_pos (Int.natCast_nonneg _)]
  rfl

theorem getByte_eq {state : Json F} {name : String} {b : UInt8} (h : member name state = some (ofByte b)) :
    getByte state name = b := by
  rw [getByte, h, Option.bind_some, asU64_ofByte, Option.getD_some, UInt8.ofNat_toNat]

theorem getBytes_eq {state : Json F} {name : String} {bs : List UInt8}
    (h : member name state = some (.array (bs.map ofByte))) : getBytes state name = bs := by
  have hbyte : ∀ b : UInt8, (asU64 (ofByte b : Json F)).map UInt8.ofNat = some b := by
    intro b
    rw [asU64_ofByte, Option.map_some, UInt8.ofNat_toNat]
  rw [getBytes, h, Option.bind_some, asArray, Option.map_some, Option.getD_some, List.filterMap_map]
  simp only [Function.comp_def, hbyte, List.filterMap_some]

theorem restoreState_snapshotState {serde : SerdeValue F} (hserde : Reads serde) (s t : Serial) :
    t.restoreState serde (s.snapshotState serde) = { s with outputBuffer := [] } := by
  rw [restoreState, snapshotState, if_neg (hserde.nonempty s), hserde.read s]
  dsimp only
  simp only [Serial.mk.injEq]
  refine ⟨getByte_eq rfl, getByte_eq rfl, getByte_eq rfl, getByte_eq rfl, getByte_eq rfl, getByte_eq rfl,
    getByte_eq rfl, getByte_eq rfl, getBytes_eq rfl, trivial, rfl, getByte_eq rfl, getByte_eq rfl⟩

theorem value_floats (s : Serial) : (s.value : Json F).floats = [] := by
  have hinput : Json.floatsList (s.inputBuffer.map (@ofByte F)) = [] := by
    induction s.inputBuffer with
    | nil => rfl
    | cons b bs ih =>
      rw [List.map_cons, Json.floatsList, ih]
      rfl
  simp [value, ofByte, Json.floats, Json.floatsFields, hinput]

theorem value_depth (s : Serial) : (s.value : Json F).depth ≤ 2 := by
  have hinput : Json.depthList (s.inputBuffer.map (@ofByte F)) ≤ 0 := by
    rw [Json.depthList_le]
    intro x hx
    obtain ⟨b, -, rfl⟩ := List.mem_map.mp hx
    exact Nat.le_refl _
  simp only [value, ofByte, Json.depth, Json.depthFields]
  omega

def textValue (ft : JsonText.FloatText F) : SerdeValue F := ⟨JsonText.toBytes ft, JsonText.ofBytes ft 127⟩

theorem textValue_reads (ft : JsonText.FloatText F) : Reads (textValue ft) := by
  have hread : ∀ s : Serial, (textValue ft).fromSlice ((textValue ft).toBytes s.value) = some s.value := by
    intro s
    have hfloats : ∀ x ∈ (s.value : Json F).floats, ft.Survives x := by
      rw [value_floats]
      exact List.forall_mem_nil _
    have hdepth : (s.value : Json F).depth ≤ 127 := (value_depth s).trans (by decide)
    simp only [textValue]
    rw [JsonText.ofBytes_toBytes hfloats, if_pos hdepth]
  refine ⟨hread, fun s hempty => ?_⟩
  have hnone : (textValue ft).fromSlice [] = none := rfl
  have hsome := hread s
  rw [hempty, hnone] at hsome
  cases hsome

end Snapshot

end Serial

end CloneVmm.Vmm
