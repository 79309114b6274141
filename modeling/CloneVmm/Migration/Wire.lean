import CloneVmm.Boot.Snapshot

/-!
`migration/mod.rs`: the frames `[type: u8][length: u32 LE][payload]` of the migration stream and
the payloads of its page batches and vCPU states.
-/

namespace CloneVmm.Migration

open CloneVmm.Lib CloneVmm.Boot

def msgMemoryPageBatch : UInt8 := 2
def msgFinalRound : UInt8 := 3
def msgVcpuState : UInt8 := 4
def msgDeviceState : UInt8 := 5
def msgComplete : UInt8 := 6
def msgAckFinal : UInt8 := 11

def writeMsg (msgType : UInt8) (payload : List UInt8) : List UInt8 :=
  [msgType] ++ leBytes 4 payload.length ++ payload

def readMsg (stream : List UInt8) : Option ((UInt8 × List UInt8) × List UInt8) :=
  match stream with
  | [] => none
  | msgType :: rest =>
    let len := leNat (rest.take 4)
    let body := rest.drop 4
    if rest.length < 4 ∨ body.length < len then none
    else some ((msgType, body.take len), body.drop len)

def readMsgs : Nat → List UInt8 → Option (List (UInt8 × List UInt8) × List UInt8)
  | 0, stream => some ([], stream)
  | n + 1, stream => do
    let (msg, rest) ← readMsg stream
    let (msgs, rest) ← readMsgs n rest
    return (msg :: msgs, rest)

def encodePageBatch (pages : List (Nat × List UInt8)) : List UInt8 :=
  leBytes 4 pages.length ++ pages.flatMap fun (offset, data) => leBytes 8 offset ++ data

/-- A call returns an error, or ends the process when the allocator refuses it a block. -/
inductive Failure
  | error (text : String)
  | aborted

def decodePages : Nat → List UInt8 → Except Failure (List (Nat × List UInt8))
  | 0, _ => .ok []
  | count + 1, buf =>
    if buf.length < 8 + 4096 then .error (.error "page batch truncated")
    else do
      let pages ← decodePages count (buf.drop (8 + 4096))
      return (leNat (buf.take 8), (buf.drop 8).take 4096) :: pages

def announced (payload : List UInt8) : Nat := leNat (payload.take 4)

def pagesCapacity (payload : List UInt8) : Nat := 32 * announced payload

/-- The allocator gives out blocks of up to `blockLimit` bytes; the payload is in a block already. -/
def decodePageBatch (blockLimit : Nat) (payload : List UInt8) : Except Failure (List (Nat × List UInt8)) :=
  if payload.length < 4 then .error (.error "page batch too short")
  else if max blockLimit payload.length < pagesCapacity payload then .error .aborted
  else decodePages (announced payload) (payload.drop 4)

def encodeVcpuState (i : Nat) (state : VcpuState) : List UInt8 :=
  leBytes 4 i ++ leBytes 4 state.regs.length ++ state.regs ++
    leBytes 4 state.sregs.length ++ state.sregs

def decodeVcpuState (payload : List UInt8) : Except String VcpuState :=
  if payload.length < 12 then .error "vCPU state payload too short"
  else
    let regsLen := leNat ((payload.drop 4).take 4)
    let rest := payload.drop 8
    if rest.length < regsLen then .error "regs truncated"
    else
      let regs := rest.take regsLen
      let rest := rest.drop regsLen
      if rest.length < 4 then .error "sregs length truncated"
      else
        let sregsLen := leNat (rest.take 4)
        let rest := rest.drop 4
        if rest.length < sregsLen then .error "sregs truncated"
        else .ok { VcpuState.empty with regs, sregs := rest.take sregsLen }

theorem leNat_take_leBytes (w v : Nat) (rest : List UInt8) (hv : v < 256 ^ w) :
    leNat ((leBytes w v ++ rest).take w) = v := by
  rw [List.take_left' (leBytes_length w v), leNat_leBytes, Nat.mod_eq_of_lt hv]

theorem drop_leBytes (w v : Nat) (rest : List UInt8) : (leBytes w v ++ rest).drop w = rest :=
  List.drop_left' (leBytes_length w v)

theorem readMsg_writeMsg (msgType : UInt8) (payload rest : List UInt8)
    (hlen : payload.length < 2 ^ 32) :
    readMsg (writeMsg msgType payload ++ rest) = some ((msgType, payload), rest) := by
  have hstream : writeMsg msgType payload ++ rest =
      msgType :: (leBytes 4 payload.length ++ (payload ++ rest)) := by
    simp [writeMsg]
  have hshort : ¬ ((leBytes 4 payload.length ++ (payload ++ rest)).length < 4 ∨
      (payload ++ rest).length < payload.length) := by
    simp only [List.length_append, leBytes_length]; omega
  rw [hstream, readMsg]
  simp only [leNat_take_leBytes 4 _ _ hlen, drop_leBytes, if_neg hshort, List.take_left, List.drop_left]

theorem decodePages_encoded (pages : List (Nat × List UInt8)) (rest : List UInt8)
    (hoff : ∀ p ∈ pages, p.1 < 2 ^ 64) (hdata : ∀ p ∈ pages, p.2.length = 4096) :
    decodePages pages.length
      ((pages.flatMap fun (offset, data) => leBytes 8 offset ++ data) ++ rest) = .ok pages := by
  induction pages with
  | nil => rfl
  | cons p pages ih =>
    obtain ⟨offset, data⟩ := p
    have hd : data.length = 4096 := hdata _ List.mem_cons_self
    have ho : offset < 256 ^ 8 := hoff _ List.mem_cons_self
    have htail := ih (fun q hq => hoff q (List.mem_cons_of_mem _ hq))
      (fun q hq => hdata q (List.mem_cons_of_mem _ hq))
    simp only [List.flatMap_cons, List.length_cons, List.append_assoc] at htail ⊢
    rw [decodePages, if_neg (by simp [hd]; omega)]
    rw [leNat_take_leBytes 8 _ _ ho, ← List.drop_drop, drop_leBytes,
      List.take_left' hd, List.drop_left' hd, htail]
    rfl

theorem encodePageBatch_length (pages : List (Nat × List UInt8))
    (hdata : ∀ p ∈ pages, p.2.length = 4096) :
    (encodePageBatch pages).length = 4 + pages.length * 4104 := by
  have hconst : pages.map (fun p => 8 + p.2.length) = pages.map fun _ => 4104 :=
    List.map_congr_left fun p hp => by rw [hdata p hp]
  simp [encodePageBatch, List.length_flatMap, hconst]

theorem announced_encodePageBatch (pages : List (Nat × List UInt8)) :
    announced (encodePageBatch pages) = pages.length % 2 ^ 32 := by
  rw [announced, encodePageBatch, List.take_left' (leBytes_length _ _), leNat_leBytes]
  rfl

theorem pagesCapacity_encodePageBatch (pages : List (Nat × List UInt8))
    (hdata : ∀ p ∈ pages, p.2.length = 4096) :
    pagesCapacity (encodePageBatch pages) ≤ (encodePageBatch pages).length := by
  have hmod := Nat.mod_le pages.length (2 ^ 32)
  rw [pagesCapacity, announced_encodePageBatch, encodePageBatch_length pages hdata]
  omega

theorem decodePageBatch_encodePageBatch_take (blockLimit : Nat) (pages : List (Nat × List UInt8))
    (hoff : ∀ p ∈ pages, p.1 < 2 ^ 64) (hdata : ∀ p ∈ pages, p.2.length = 4096) :
    decodePageBatch blockLimit (encodePageBatch pages) = .ok (pages.take (pages.length % 2 ^ 32)) := by
  have hmod := Nat.mod_le pages.length (2 ^ 32)
  have htake : (pages.take (pages.length % 2 ^ 32)).length = pages.length % 2 ^ 32 := List.length_take_of_le hmod
  have h := decodePages_encoded (pages.take (pages.length % 2 ^ 32))
    ((pages.drop (pages.length % 2 ^ 32)).flatMap fun (offset, data) => leBytes 8 offset ++ data)
    (fun p hp => hoff p (List.mem_of_mem_take hp)) (fun p hp => hdata p (List.mem_of_mem_take hp))
  rw [htake, ← List.flatMap_append, List.take_append_drop] at h
  have hroom : ¬ max blockLimit (encodePageBatch pages).length < pagesCapacity (encodePageBatch pages) :=
    Nat.not_lt.mpr ((pagesCapacity_encodePageBatch pages hdata).trans (Nat.le_max_right _ _))
  rw [decodePageBatch, if_neg (by simp [encodePageBatch]), if_neg hroom, announced_encodePageBatch,
    encodePageBatch, drop_leBytes]
  exact h

theorem decodePageBatch_encodePageBatch_iff (blockLimit : Nat) (pages : List (Nat × List UInt8))
    (hoff : ∀ p ∈ pages, p.1 < 2 ^ 64) (hdata : ∀ p ∈ pages, p.2.length = 4096) :
    decodePageBatch blockLimit (encodePageBatch pages) = .ok pages ↔ pages.length < 2 ^ 32 := by
  rw [decodePageBatch_encodePageBatch_take blockLimit pages hoff hdata, Except.ok.injEq]
  constructor
  · intro heq
    have hlen := congrArg List.length heq
    rw [List.length_take_of_le (Nat.mod_le _ _)] at hlen
    rw [← hlen]
    exact Nat.mod_lt _ (by decide)
  · intro hcount
    rw [Nat.mod_eq_of_lt hcount, List.take_length]

theorem decodePageBatch_encodePageBatch (blockLimit : Nat) (pages : List (Nat × List UInt8))
    (hcount : pages.length < 2 ^ 32) (hoff : ∀ p ∈ pages, p.1 < 2 ^ 64)
    (hdata : ∀ p ∈ pages, p.2.length = 4096) :
    decodePageBatch blockLimit (encodePageBatch pages) = .ok pages :=
  (decodePageBatch_encodePageBatch_iff blockLimit pages hoff hdata).mpr hcount

theorem decodePages_error_iff (count : Nat) (buf : List UInt8) :
    (∃ text, decodePages count buf = .error (.error text)) ↔ buf.length < count * 4104 := by
  induction count generalizing buf with
  | zero => simp [decodePages]
  | succ count ih =>
    rw [decodePages]
    split
    case isTrue hshort => exact ⟨fun _ => by omega, fun _ => ⟨_, rfl⟩⟩
    case isFalse hlong =>
      have htail := ih (buf.drop (8 + 4096))
      rw [List.length_drop] at htail
      cases hpages : decodePages count (buf.drop (8 + 4096)) with
      | error failure =>
        rw [hpages] at htail
        have hrest : (∃ text, (Except.error failure : Except Failure (List (Nat × List UInt8))) =
            .error (.error text)) ↔ buf.length < (count + 1) * 4104 := htail.trans (by omega)
        exact hrest
      | ok pages =>
        rw [hpages] at htail
        have hlong' : ¬ buf.length - (8 + 4096) < count * 4104 := fun h => by
          obtain ⟨text, htext⟩ := htail.mpr h
          cases htext
        exact ⟨fun ⟨text, h⟩ => (by cases h), fun h => absurd h (by omega)⟩

/-- The batch is cut short, and its count is one the allocator still has room for. -/
def Refusable (blockLimit : Nat) (payload : List UInt8) : Prop :=
  payload.length < 4 ∨
    pagesCapacity payload ≤ max blockLimit payload.length ∧ payload.length < 4 + announced payload * 4104

theorem decodePageBatch_error_iff (blockLimit : Nat) (payload : List UInt8) :
    (∃ text, decodePageBatch blockLimit payload = .error (.error text)) ↔ Refusable blockLimit payload := by
  rw [decodePageBatch, Refusable]
  split
  case isTrue hshort => exact ⟨fun _ => .inl hshort, fun _ => ⟨_, rfl⟩⟩
  case isFalse hheader =>
    split
    case isTrue hroom => exact ⟨fun ⟨text, h⟩ => (by cases h), fun h => by omega⟩
    case isFalse hroom =>
      rw [decodePages_error_iff, List.length_drop]
      omega

example : ¬ Refusable (16 * 2 ^ 30) [0xFF, 0xFF, 0xFF, 0xFF] := by
  simp [Refusable, pagesCapacity, announced, leNat]

theorem readMsgs_writeMsg (msgs : List (UInt8 × List UInt8)) (rest : List UInt8)
    (h : ∀ msg ∈ msgs, msg.2.length < 2 ^ 32) :
    readMsgs msgs.length ((msgs.flatMap fun msg => writeMsg msg.1 msg.2) ++ rest) = some (msgs, rest) := by
  induction msgs with
  | nil => rfl
  | cons msg msgs ih =>
    obtain ⟨hhead, htail⟩ := List.forall_mem_cons.mp h
    rw [List.flatMap_cons, List.append_assoc, List.length_cons, readMsgs, readMsg_writeMsg _ _ _ hhead]
    simp [ih htail]

/-- Batches of up to `2 ^ 32 - 1` pages and streams of messages come back as they were sent. -/
theorem wire_roundtrip (blockLimit : Nat) (pages : List (Nat × List UInt8)) (hoff : ∀ p ∈ pages, p.1 < 2 ^ 64)
    (hdata : ∀ p ∈ pages, p.2.length = 4096) (msgs : List (UInt8 × List UInt8))
    (hmsgs : ∀ msg ∈ msgs, msg.2.length < 2 ^ 32) :
    (decodePageBatch blockLimit (encodePageBatch pages) = .ok pages ↔ pages.length < 2 ^ 32) ∧
      readMsgs msgs.length (msgs.flatMap fun msg => writeMsg msg.1 msg.2) = some (msgs, []) := by
  have hstream := readMsgs_writeMsg msgs [] hmsgs
  rw [List.append_nil] at hstream
  exact ⟨decodePageBatch_encodePageBatch_iff blockLimit pages hoff hdata, hstream⟩

def samplePage (fill : UInt8) : List UInt8 := List.replicate 4096 fill

theorem samplePage_length (fill : UInt8) : (samplePage fill).length = 4096 := List.length_replicate

theorem wire_roundtrip_two :
    decodePageBatch 0 (encodePageBatch [(0x1000, samplePage 0xAA), (0x5000, samplePage 0xBB)]) =
        .ok [(0x1000, samplePage 0xAA), (0x5000, samplePage 0xBB)] ∧
      readMsgs 2 ([(msgFinalRound, [7]), (msgComplete, [])].flatMap fun msg => writeMsg msg.1 msg.2) =
        some ([(msgFinalRound, [7]), (msgComplete, [])], []) := by
  have h := wire_roundtrip 0 [(0x1000, samplePage 0xAA), (0x5000, samplePage 0xBB)] (by simp)
    (by simp [samplePage_length]) [(msgFinalRound, [7]), (msgComplete, [])] (by simp)
  exact ⟨h.1.mpr (by simp), h.2⟩

theorem wire_roundtrip_fails :
    decodePageBatch 0 (encodePageBatch (List.replicate (2 ^ 32) (0, samplePage 0xAA))) ≠
      .ok (List.replicate (2 ^ 32) (0, samplePage 0xAA)) := by
  have hpages : ∀ p ∈ List.replicate (2 ^ 32) (0, samplePage 0xAA), p = (0, samplePage 0xAA) :=
    fun p hp => List.eq_of_mem_replicate hp
  have hoff : ∀ p ∈ List.replicate (2 ^ 32) (0, samplePage 0xAA), p.1 < 2 ^ 64 := by
    intro p hp
    rw [hpages p hp]
    exact Nat.two_pow_pos 64
  have hdata : ∀ p ∈ List.replicate (2 ^ 32) (0, samplePage 0xAA), p.2.length = 4096 := by
    intro p hp
    rw [hpages p hp, samplePage_length]
  rw [Ne, decodePageBatch_encodePageBatch_iff 0 _ hoff hdata, List.length_replicate]
  exact Nat.lt_irrefl _

def OnlyRegisters (state : VcpuState) : Prop :=
  state = { VcpuState.empty with regs := state.regs, sregs := state.sregs }

instance (state : VcpuState) : Decidable (OnlyRegisters state) := inferInstanceAs (Decidable (_ = _))

theorem encodeVcpuState_length (i : Nat) (state : VcpuState) :
    (encodeVcpuState i state).length = 12 + state.regs.length + state.sregs.length := by
  simp only [encodeVcpuState, List.length_append, leBytes_length]
  omega

theorem decodeVcpuState_encodeVcpuState (i : Nat) (state : VcpuState) (hregs : state.regs.length < 2 ^ 32)
    (hsregs : state.sregs.length < 2 ^ 32) :
    decodeVcpuState (encodeVcpuState i state) =
      .ok { VcpuState.empty with regs := state.regs, sregs := state.sregs } := by
  have hlong : ¬ (encodeVcpuState i state).length < 12 := by
    rw [encodeVcpuState_length]
    omega
  have hdrop : (encodeVcpuState i state).drop 4 = leBytes 4 state.regs.length ++ (state.regs ++
      (leBytes 4 state.sregs.length ++ state.sregs)) := by
    simp only [encodeVcpuState, List.append_assoc]
    exact drop_leBytes 4 i _
  have hdrop' : (encodeVcpuState i state).drop 8 = state.regs ++
      (leBytes 4 state.sregs.length ++ state.sregs) := by
    rw [← List.drop_drop (i := 4) (j := 4), hdrop, drop_leBytes]
  have hsregsLen : leNat ((leBytes 4 state.sregs.length ++ state.sregs).take 4) = state.sregs.length :=
    leNat_take_leBytes 4 _ _ hsregs
  unfold decodeVcpuState
  rw [if_neg hlong, hdrop, hdrop', leNat_take_leBytes 4 _ _ hregs]
  simp only [List.take_left, List.drop_left, hsregsLen, drop_leBytes, List.take_length]
  rw [if_neg (by simp), if_neg (by simp), if_neg (by simp)]

theorem decodeVcpuState_ok {payload : List UInt8} {state : VcpuState} (h : decodeVcpuState payload = .ok state) :
    12 + state.regs.length + state.sregs.length ≤ payload.length ∧ OnlyRegisters state := by
  unfold decodeVcpuState at h
  split at h
  · cases h
  · dsimp only at h
    split at h
    · cases h
    · split at h
      · cases h
      · split at h
        · cases h
        · cases h
          refine ⟨?_, rfl⟩
          simp only [List.length_take, List.length_drop] at *
          omega

theorem readMsg_length {stream payload rest : List UInt8} {msgType : UInt8}
    (h : readMsg stream = some ((msgType, payload), rest)) : payload.length < 2 ^ 32 := by
  cases stream with
  | nil => cases h
  | cons b stream =>
    unfold readMsg at h
    dsimp only at h
    split at h
    · cases h
    · cases h
      have hlen := leNat_lt (stream.take 4)
      rw [List.length_take] at hlen
      have hle : 256 ^ min 4 stream.length ≤ 256 ^ 4 := Nat.pow_le_pow_right (by omega) (by omega)
      rw [List.length_take]
      omega

/-- The receiver gets back the state that was captured exactly when the message has all of it. -/
theorem vcpuState_migrates_iff (i : Nat) (state : VcpuState) (later : List UInt8) :
    (∃ payload rest, readMsg (writeMsg msgVcpuState (encodeVcpuState i state) ++ later) =
        some ((msgVcpuState, payload), rest) ∧ decodeVcpuState payload = .ok state) ↔
      OnlyRegisters state ∧ 12 + state.regs.length + state.sregs.length < 2 ^ 32 := by
  constructor
  · rintro ⟨payload, rest, hread, hdecode⟩
    obtain ⟨hlen, honly⟩ := decodeVcpuState_ok hdecode
    have hshort := readMsg_length hread
    exact ⟨honly, by omega⟩
  · rintro ⟨honly, hlen⟩
    have hframe : (encodeVcpuState i state).length < 2 ^ 32 := by rwa [encodeVcpuState_length]
    refine ⟨encodeVcpuState i state, later, readMsg_writeMsg _ _ _ hframe, ?_⟩
    rw [decodeVcpuState_encodeVcpuState i state (by omega) (by omega)]
    exact congrArg Except.ok honly.symm

theorem vcpuState_migrates_lapic :
    ¬ ∃ payload rest, readMsg (writeMsg msgVcpuState (encodeVcpuState 0 { lapic := [1] }) ++ []) =
      some ((msgVcpuState, payload), rest) ∧ decodeVcpuState payload = .ok { lapic := [1] } := by
  rintro ⟨payload, rest, -, hdecode⟩
  have honly := (decodeVcpuState_ok hdecode).2
  exact absurd honly (by decide)

end CloneVmm.Migration
