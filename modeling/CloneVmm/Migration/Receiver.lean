import CloneVmm.Migration.Invariant

/-!
`migration/mod.rs`: `run_receiver` from the first byte on, for a peer that sends what it likes. Where the
copies of pages go, and which batches end the session with an error.
-/

namespace CloneVmm.Migration

open CloneVmm.Lib CloneVmm.Memory CloneVmm.Boot

def msgHello : UInt8 := 1

structure HelloMsg where
  memSize : UInt64
  kvmSlotSize : UInt64
  numVcpus : UInt32
  numDevices : UInt32

/-- `serde_json`, the memory and VM that the host makes for a size or refuses, and the largest block
that the allocator gives out. -/
structure ReceiverHost where
  parseHello : List UInt8 → Option HelloMsg
  parseDeviceStates : List UInt8 → Bool
  createVm : Nat → Except String Unit
  blockLimit : Nat

/-- The session after the Ready message. `copied` lists the pages that were copied, in order. -/
structure Session where
  memSize : Nat
  allocSize : Nat
  stream : List UInt8
  receiver : Receiver := {}
  copied : List (Nat × List UInt8) := []

def openSession (host : ReceiverHost) (stream : List UInt8) : Except Failure Session :=
  match readMsg stream with
  | none => .error (.error "failed to fill whole buffer")
  | some ((msgType, payload), rest) =>
    if host.blockLimit < payload.length then .error .aborted
    else if msgType ≠ msgHello then
      let got := msgType.toNat
      .error (.error s!"Expected Hello, got type {got}")
    else
      match host.parseHello payload with
      | none => .error (.error "invalid Hello")
      | some hello => do
        let allocSize := (hello.memSize.toNat + guardSize) % 2 ^ 64
        (host.createVm allocSize).mapError .error
        return { memSize := hello.memSize.toNat, allocSize, stream := rest }

/-- The pages that pass `*page_offset + PAGE_SIZE <= alloc_size`, an addition of `u64`s. -/
def copies (allocSize : Nat) (pages : List (Nat × List UInt8)) : List (Nat × List UInt8) :=
  pages.filter fun page => (page.1 + pageSize) % 2 ^ 64 ≤ allocSize

def Session.onMsg (host : ReceiverHost) (s : Session) (msg : UInt8 × List UInt8) : Session :=
  let r := s.receiver
  if msg.1 = msgMemoryPageBatch then
    match decodePageBatch host.blockLimit msg.2 with
    | .error e => { s with receiver := { r with status := e.status } }
    | .ok pages =>
      { s with receiver := pages.foldl (applyPage s.allocSize) r, copied := s.copied ++ copies s.allocSize pages }
  else if msg.1 = msgFinalRound then { s with receiver := { r with gotFinal := true } }
  else if msg.1 = msgVcpuState then
    match decodeVcpuState msg.2 with
    | .error e => { s with receiver := { r with status := .failed e } }
    | .ok state => { s with receiver := { r with vcpuStates := r.vcpuStates ++ [state] } }
  else if msg.1 = msgDeviceState then
    if host.parseDeviceStates msg.2 then { s with receiver := { r with deviceStates := some msg.2 } }
    else { s with receiver := { r with status := .failed "device states" } }
  else if msg.1 = msgComplete then
    if r.gotFinal then { s with receiver := { r with status := .complete } }
    else { s with receiver := { r with status := .failed "Never received FinalRound marker" } }
  else s

def Session.receive (host : ReceiverHost) (s : Session) : Option ((UInt8 × List UInt8) × Session) :=
  match s.receiver.status, readMsg s.stream with
  | .receiving, some (msg, rest) =>
    -- `vec![0u8; len]` of `read_msg`
    if host.blockLimit < msg.2.length then
      some (msg, { s with receiver := { s.receiver with status := .aborted }, stream := rest })
    else some (msg, { s.onMsg host msg with stream := rest })
  | _, _ => none

def Receives (host : ReceiverHost) (s : Session) (msg : UInt8 × List UInt8) (t : Session) : Prop :=
  s.receive host = some (msg, t)

def ReachedBy (host : ReceiverHost) (stream : List UInt8) (s : Session) : Prop :=
  ∃ s₀ msgs, openSession host stream = .ok s₀ ∧ Steps (Receives host) s₀ msgs s

/-- A payload of the documented format, with every page in `[0, memSize)`. -/
def GoodBatch (memSize : Nat) (payload : List UInt8) : Prop :=
  ∃ pages, payload = encodePageBatch pages ∧ pages.length < 2 ^ 32 ∧
    ∀ page ∈ pages, page.2.length = pageSize ∧ page.1 + pageSize ≤ memSize

structure Confined (host : ReceiverHost) (stream : List UInt8) : Prop where
  copied : ∀ s, ReachedBy host stream s → ∀ page ∈ s.copied, page.1 + pageSize ≤ s.memSize
  rejects : ∀ s payload t, ReachedBy host stream s → Receives host s (msgMemoryPageBatch, payload) t →
    ¬ GoodBatch s.memSize payload → ∃ e, t.receiver.status = .failed e

variable {host : ReceiverHost} {stream : List UInt8} {s t : Session} {msg : UInt8 × List UInt8}

theorem Receives.status (h : Receives host s msg t) : s.receiver.status = .receiving := by
  simp only [Receives, Session.receive] at h
  split at h
  · assumption
  · cases h

theorem Receives.cases (h : Receives host s msg t) :
    (msg.2.length ≤ host.blockLimit ∧ ∃ rest, t = { s.onMsg host msg with stream := rest }) ∨
      host.blockLimit < msg.2.length ∧
        ∃ rest, t = { s with receiver := { s.receiver with status := .aborted }, stream := rest } := by
  simp only [Receives, Session.receive] at h
  split at h
  · split at h
    case isTrue hlong =>
      cases h
      exact .inr ⟨hlong, _, rfl⟩
    case isFalse hshort =>
      cases h
      exact .inl ⟨Nat.not_lt.mp hshort, _, rfl⟩
  · cases h

theorem Session.onMsg_error {payload : List UInt8} {e : Failure}
    (h : decodePageBatch host.blockLimit payload = .error e) :
    s.onMsg host (msgMemoryPageBatch, payload) = { s with receiver := { s.receiver with status := e.status } } := by
  simp only [Session.onMsg, h, if_true]

theorem Session.onMsg_ok {payload : List UInt8} {pages : List (Nat × List UInt8)}
    (h : decodePageBatch host.blockLimit payload = .ok pages) :
    s.onMsg host (msgMemoryPageBatch, payload) =
      { s with
        receiver := pages.foldl (applyPage s.allocSize) s.receiver
        copied := s.copied ++ copies s.allocSize pages } := by
  simp only [Session.onMsg, h, if_true]

theorem Session.onMsg_other (h : msg.1 ≠ msgMemoryPageBatch) :
    (s.onMsg host msg).copied = s.copied ∧ (s.onMsg host msg).receiver.mem = s.receiver.mem ∧
      (s.onMsg host msg).memSize = s.memSize := by
  simp only [Session.onMsg, if_neg h]
  split
  · exact ⟨rfl, rfl, rfl⟩
  · split
    · split <;> exact ⟨rfl, rfl, rfl⟩
    · split
      · split <;> exact ⟨rfl, rfl, rfl⟩
      · split
        · split <;> exact ⟨rfl, rfl, rfl⟩
        · exact ⟨rfl, rfl, rfl⟩

theorem Session.onMsg_memSize : (s.onMsg host msg).memSize = s.memSize := by
  by_cases hbatch : msg.1 = msgMemoryPageBatch
  · obtain ⟨msgType, payload⟩ := msg
    subst hbatch
    cases hdecode : decodePageBatch host.blockLimit payload with
    | error e => rw [onMsg_error hdecode]
    | ok pages => rw [onMsg_ok hdecode]
  · exact (onMsg_other hbatch).2.2

theorem Receives.memSize (h : Receives host s msg t) : t.memSize = s.memSize := by
  rcases h.cases with ⟨-, rest, rfl⟩ | ⟨-, rest, rfl⟩
  · exact Session.onMsg_memSize
  · rfl

theorem foldl_place_copies (allocSize : Nat) (pages : List (Nat × List UInt8)) (m : ByteStore) :
    pages.foldl (place allocSize) m = (copies allocSize pages).foldl (fun m page => writeBytes m page.1 page.2) m := by
  have hplace : place allocSize = fun m page =>
      if decide ((page.1 + pageSize) % 2 ^ 64 ≤ allocSize) = true then writeBytes m page.1 page.2 else m := by
    funext m page
    simp only [place, decide_eq_true_eq]
  rw [copies, List.foldl_filter, hplace]

def Session.MemoryIsCopied (s : Session) : Prop :=
  s.receiver.mem = s.copied.foldl (fun m page => writeBytes m page.1 page.2) fun _ => 0

theorem Session.MemoryIsCopied.receives (hs : s.MemoryIsCopied) (h : Receives host s msg t) : t.MemoryIsCopied := by
  rcases h.cases with ⟨-, rest, rfl⟩ | ⟨-, rest, rfl⟩
  case inr => exact hs
  simp only [MemoryIsCopied] at hs ⊢
  by_cases hbatch : msg.1 = msgMemoryPageBatch
  · obtain ⟨msgType, payload⟩ := msg
    subst hbatch
    cases hdecode : decodePageBatch host.blockLimit payload with
    | error e =>
      rw [onMsg_error hdecode]
      exact hs
    | ok pages =>
      rw [onMsg_ok hdecode, List.foldl_append, ← hs, ← foldl_place_copies]
      exact (foldl_applyPage _ _ _).1
  · obtain ⟨hcopied, hmem, -⟩ : (s.onMsg host msg).copied = s.copied ∧
        (s.onMsg host msg).receiver.mem = s.receiver.mem ∧ _ := Session.onMsg_other hbatch
    rw [hcopied, hmem]
    exact hs

theorem openSession_ok (h : openSession host stream = .ok s) :
    s.copied = [] ∧ s.receiver = {} ∧ s.memSize < 2 ^ 64 := by
  simp only [openSession] at h
  split at h
  · cases h
  · split at h
    · cases h
    · split at h
      · cases h
      · split at h
        · cases h
        · rename_i hello _
          cases hvm : host.createVm ((hello.memSize.toNat + guardSize) % 2 ^ 64) with
          | error e =>
            rw [hvm] at h
            cases h
          | ok =>
            rw [hvm] at h
            cases h
            exact ⟨rfl, rfl, hello.memSize.toNat_lt⟩

theorem ReachedBy.memoryIsCopied (h : ReachedBy host stream s) : s.MemoryIsCopied := by
  obtain ⟨s₀, msgs, hopen, hsteps⟩ := h
  refine hsteps.invariant (fun s msg t h hs => hs.receives h) ?_
  obtain ⟨hcopied, hreceiver, -⟩ := openSession_ok hopen
  rw [Session.MemoryIsCopied, hcopied, hreceiver]
  rfl

theorem ReachedBy.receives (hs : ReachedBy host stream s) (h : Receives host s msg t) : ReachedBy host stream t := by
  obtain ⟨s₀, msgs, hopen, hsteps⟩ := hs
  exact ⟨s₀, msgs ++ [msg], hopen, hsteps.append (.cons h (.nil t))⟩

theorem ReachedBy.memSize_lt (h : ReachedBy host stream s) : s.memSize < 2 ^ 64 := by
  obtain ⟨s₀, msgs, hopen, hsteps⟩ := h
  exact hsteps.invariant (fun s msg t h (hs : s.memSize < 2 ^ 64) => h.memSize.trans_lt hs) (openSession_ok hopen).2.2

theorem GoodBatch.decode {memSize blockLimit : Nat} {payload : List UInt8} {pages : List (Nat × List UInt8)}
    (h : GoodBatch memSize payload) (hsize : memSize < 2 ^ 64)
    (hdecode : decodePageBatch blockLimit payload = .ok pages) :
    ∀ page ∈ pages, page.1 + pageSize ≤ memSize := by
  obtain ⟨sent, rfl, hcount, hpages⟩ := h
  have hoff : ∀ page ∈ sent, page.1 < 2 ^ 64 := by
    intro page hpage
    have hin := (hpages page hpage).2
    omega
  rw [decodePageBatch_encodePageBatch blockLimit sent hcount hoff fun page hpage => (hpages page hpage).1] at hdecode
  cases hdecode
  exact fun page hpage => (hpages page hpage).2

theorem ReachedBy.copied_receives (hs : ReachedBy host stream s) (h : Receives host s msg t)
    (hin : ∀ page ∈ s.copied, page.1 + pageSize ≤ s.memSize)
    (hgood : ∀ payload, Receives host s (msgMemoryPageBatch, payload) t → ∀ pages,
      decodePageBatch host.blockLimit payload = .ok pages → GoodBatch s.memSize payload) :
    ∀ page ∈ t.copied, page.1 + pageSize ≤ t.memSize := by
  rw [h.memSize]
  have hstep := h
  rcases h.cases with ⟨-, rest, rfl⟩ | ⟨-, rest, rfl⟩
  case inr => exact hin
  by_cases hbatch : msg.1 = msgMemoryPageBatch
  · obtain ⟨msgType, payload⟩ := msg
    subst hbatch
    cases hdecode : decodePageBatch host.blockLimit payload with
    | error e =>
      -- a batch that is cut short ends the session before a page of it is copied
      rw [Session.onMsg_error hdecode]
      exact hin
    | ok pages =>
      have hpages := (hgood payload hstep pages hdecode).decode hs.memSize_lt hdecode
      rw [Session.onMsg_ok hdecode]
      intro page hpage
      rcases List.mem_append.mp hpage with hold | hnew
      · exact hin page hold
      · exact hpages page (List.mem_of_mem_filter hnew)
  · rw [(Session.onMsg_other hbatch).1]
    exact hin

/-- No page of the session is copied or passed over outside guest memory exactly when every batch that is
not a good one can be read and is cut short, behind a count that the allocator has room for. -/
theorem receiver_confined_iff (host : ReceiverHost) (stream : List UInt8) :
    Confined host stream ↔ ∀ s payload t, ReachedBy host stream s → Receives host s (msgMemoryPageBatch, payload) t →
      GoodBatch s.memSize payload ∨ payload.length ≤ host.blockLimit ∧ Refusable host.blockLimit payload := by
  constructor
  · intro h s payload t hs hreceive
    by_contra hneither
    obtain ⟨hbad, hkept⟩ := not_or.mp hneither
    obtain ⟨e, he⟩ := h.rejects s payload t hs hreceive hbad
    rcases hreceive.cases with ⟨hlen, rest, rfl⟩ | ⟨-, rest, rfl⟩
    · cases hdecode : decodePageBatch host.blockLimit payload with
      | ok pages =>
        rw [Session.onMsg_ok hdecode, (foldl_applyPage _ _ _).2, hreceive.status] at he
        cases he
      | error failure =>
        rw [Session.onMsg_error hdecode] at he
        cases failure with
        | error text => exact hkept ⟨hlen, (decodePageBatch_error_iff _ _).mp ⟨text, hdecode⟩⟩
        | aborted => cases he
    · cases he
  · intro h
    have hgood : ∀ s payload t, ReachedBy host stream s → Receives host s (msgMemoryPageBatch, payload) t →
        ∀ pages, decodePageBatch host.blockLimit payload = .ok pages → GoodBatch s.memSize payload := by
      intro s payload t hs hreceive pages hdecode
      refine (h s payload t hs hreceive).resolve_right fun ⟨_, hrefused⟩ => ?_
      obtain ⟨text, htext⟩ := (decodePageBatch_error_iff _ _).mpr hrefused
      rw [hdecode] at htext
      cases htext
    constructor
    · rintro s ⟨s₀, msgs, hopen, hsteps⟩
      have hkeep : ∀ s msg t, Receives host s msg t →
          (ReachedBy host stream s ∧ ∀ page ∈ s.copied, page.1 + pageSize ≤ s.memSize) →
          ReachedBy host stream t ∧ ∀ page ∈ t.copied, page.1 + pageSize ≤ t.memSize := by
        rintro s msg t hreceive ⟨hs, hin⟩
        exact ⟨hs.receives hreceive, hs.copied_receives hreceive hin (hgood s · t hs)⟩
      refine (hsteps.invariant hkeep ⟨⟨s₀, [], hopen, .nil s₀⟩, ?_⟩).2
      rw [(openSession_ok hopen).1]
      exact fun page hpage => absurd hpage List.not_mem_nil
    · intro s payload t hs hreceive hbad
      obtain ⟨hlen, hrefused⟩ := (h s payload t hs hreceive).resolve_left hbad
      obtain ⟨text, hdecode⟩ := (decodePageBatch_error_iff _ _).mpr hrefused
      rcases hreceive.cases with ⟨-, rest, rfl⟩ | ⟨hlong, -⟩
      · rw [Session.onMsg_error hdecode]
        exact ⟨text, rfl⟩
      · exact absurd hlen (Nat.not_le.mpr hlong)

def onePageHello : List UInt8 :=
  let fields := "\x7b\"mem_size\":4096,\"kvm_slot_size\":134221824,\"num_vcpus\":1,\"num_devices\":0\x7d"
  fields.toUTF8.data.toList

def lastPageStream : List UInt8 :=
  writeMsg msgHello onePageHello ++ writeMsg msgMemoryPageBatch (encodePageBatch [(2 ^ 64 - 4096, samplePage 0xAA)])

def onePageHost : ReceiverHost where
  parseHello payload := if payload = onePageHello then some ⟨4096, 134221824, 1, 0⟩ else none
  parseDeviceStates _ := true
  createVm _ := .ok ()
  blockLimit := 2 ^ 34

theorem receiver_confined_fails : ¬ Confined onePageHost lastPageStream := by
  have hpages : ∀ p ∈ [(2 ^ 64 - 4096, samplePage 0xAA)], p.1 < 2 ^ 64 ∧ p.2.length = 4096 := by
    simp [samplePage_length]
  have hlen : (encodePageBatch [(2 ^ 64 - 4096, samplePage 0xAA)]).length < 2 ^ 32 := by
    rw [encodePageBatch_length _ fun p hp => (hpages p hp).2]
    decide
  have hdecode := decodePageBatch_encodePageBatch onePageHost.blockLimit [(2 ^ 64 - 4096, samplePage 0xAA)] (by decide)
    (fun p hp => (hpages p hp).1) fun p hp => (hpages p hp).2
  let s : Session :=
    { memSize := 4096, allocSize := 4096 + guardSize
      stream := writeMsg msgMemoryPageBatch (encodePageBatch [(2 ^ 64 - 4096, samplePage 0xAA)]) }
  have hopen : openSession onePageHost lastPageStream = .ok s := by
    have hhello : onePageHello.length = 73 := by decide
    rw [openSession, lastPageStream, readMsg_writeMsg msgHello onePageHello _ (by rw [hhello]; decide)]
    simp only [ne_eq, not_true, if_false, onePageHost, if_true, hhello]
    rfl
  have hread := readMsg_writeMsg msgMemoryPageBatch _ [] hlen
  rw [List.append_nil] at hread
  have hreceive : Receives onePageHost s
      (msgMemoryPageBatch, encodePageBatch [(2 ^ 64 - 4096, samplePage 0xAA)])
      { s.onMsg onePageHost (msgMemoryPageBatch, encodePageBatch [(2 ^ 64 - 4096, samplePage 0xAA)]) with
        stream := [] } := by
    have hblock : ¬ onePageHost.blockLimit < (encodePageBatch [(2 ^ 64 - 4096, samplePage 0xAA)]).length := by
      rw [encodePageBatch_length _ fun p hp => (hpages p hp).2]
      decide
    simp only [Receives, Session.receive, s, hread, if_neg hblock]
  intro h
  have hreached : ReachedBy onePageHost lastPageStream s := ⟨s, [], hopen, .nil s⟩
  have hcopied := h.copied _ (hreached.receives hreceive) (2 ^ 64 - 4096, samplePage 0xAA)
  rw [Session.onMsg_ok hdecode] at hcopied
  have hmem : (2 ^ 64 - 4096, samplePage 0xAA) ∈ copies s.allocSize [(2 ^ 64 - 4096, samplePage 0xAA)] :=
    List.mem_filter.mpr ⟨List.mem_singleton_self _, by decide⟩
  exact absurd (hcopied (List.mem_append_right _ hmem)) (by decide)

end CloneVmm.Migration
