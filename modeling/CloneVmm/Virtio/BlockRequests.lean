import CloneVmm.Virtio.BlockAddressing

namespace CloneVmm.Virtio.Block

open CloneVmm.Lib

section Moves

variable {B : Type} [Storage.Backing B] {env : Env B} {base content : ByteStore} {r : Request B} {vq : Virtqueue}
  {cur offset : Nat} {desc : Descriptor} {descs : List Descriptor}

def taken (requestType : Nat) (descs : List Descriptor) : List Descriptor := descs.filter (Request.Takes requestType)

def lengths (descs : List Descriptor) : List Nat := descs.map (·.len)

def buffers (vq : Virtqueue) (mem : ByteStore) (descs : List Descriptor) : List (List UInt8) :=
  descs.map fun desc => guestBytes vq mem desc.addr desc.len

theorem buffers_lengths (mem : ByteStore) : (buffers vq mem descs).map List.length = lengths descs := by
  rw [buffers, lengths, List.map_map]
  apply List.map_congr_left
  intro desc _
  exact guestBytes_length

theorem taken_cons_pos {requestType : Nat} (h : Request.Takes requestType desc) :
    taken requestType (desc :: descs) = desc :: taken requestType descs :=
  List.filter_cons_of_pos (decide_eq_true h)

theorem taken_cons_neg {requestType : Nat} (h : ¬ Request.Takes requestType desc) :
    taken requestType (desc :: descs) = taken requestType descs :=
  List.filter_cons_of_neg (by simpa using h)

theorem nextSector_zero (hcur : cur < 2 ^ 64) : nextSector cur 0 = cur := by
  rw [nextSector, Nat.zero_div, Nat.add_zero, Nat.mod_eq_of_lt hcur]

theorem nextSector_lt (cur len : Nat) : nextSector cur len < 2 ^ 64 := Nat.mod_lt _ (Nat.two_pow_pos 64)

theorem moveData_some {requestType : Nat} (htakes : Request.Takes requestType desc)
    (hrange : vq.guestRange desc.addr desc.len = some offset)
    (h : (Request.moveData env vq requestType cur (desc :: descs) r).1 = some virtioBlkSOk) :
    (r.move env requestType cur desc offset).1 = some virtioBlkSOk ∧
      Request.moveData env vq requestType cur (desc :: descs) r =
        Request.moveData env vq requestType (nextSector cur desc.len) descs
          ((r.move env requestType cur desc offset).2.done requestType desc) := by
  have heq : Request.moveData env vq requestType cur (desc :: descs) r =
      if (r.move env requestType cur desc offset).1 = some virtioBlkSOk then
        Request.moveData env vq requestType (nextSector cur desc.len) descs
          ((r.move env requestType cur desc offset).2.done requestType desc)
      else r.move env requestType cur desc offset := by
    rw [Request.moveData, if_pos htakes, hrange]
    rfl
  by_cases hok : (r.move env requestType cur desc offset).1 = some virtioBlkSOk
  · rw [if_pos hok] at heq
    exact ⟨hok, heq⟩
  · rw [heq, if_neg hok] at h
    exact absurd h hok

theorem moveData_none {requestType : Nat} (htakes : Request.Takes requestType desc)
    (hrange : vq.guestRange desc.addr desc.len = none) :
    Request.moveData env vq requestType cur (desc :: descs) r = Request.moveData env vq requestType cur descs r := by
  rw [Request.moveData, if_pos htakes, hrange]

theorem moveData_skip {requestType : Nat} (htakes : ¬ Request.Takes requestType desc) :
    Request.moveData env vq requestType cur (desc :: descs) r = Request.moveData env vq requestType cur descs r := by
  rw [Request.moveData, if_neg htakes]

theorem move_out : r.move env virtioBlkTOut cur desc offset =
    ((r.dev.doWrite env cur (readBytes r.mem offset desc.len)).1,
      { r.fill desc offset [] with dev := (r.dev.doWrite env cur (readBytes r.mem offset desc.len)).2 }) := rfl

theorem move_in : r.move env virtioBlkTIn cur desc offset =
    ((r.dev.doRead env cur desc.len).1,
      { r.fill desc offset (r.dev.doRead env cur desc.len).2.1 with dev := (r.dev.doRead env cur desc.len).2.2 }) := by
  rw [Request.move, VirtioBlock.processRequest, if_pos rfl, readBytes_length]

theorem moveData_out (hsized : Sized vq) (hguest : ∀ desc ∈ descs, InGuest vq desc.addr desc.len)
    (htyped : ∀ desc ∈ descs, desc.len < 2 ^ 32) (hcur : cur < 2 ^ 64)
    (hshows : r.dev.backend.Shows env base content)
    (h : (Request.moveData env vq virtioBlkTOut cur descs r).1 = some virtioBlkSOk) :
    Fits cur (lengths (taken virtioBlkTOut descs)) ∧
      (Request.moveData env vq virtioBlkTOut cur descs r).2.dev.backend.Shows env base
        (placeAll cur (buffers vq r.mem (taken virtioBlkTOut descs)) content) := by
  induction descs generalizing cur r content with
  | nil => exact ⟨trivial, hshows⟩
  | cons desc descs ih =>
    obtain ⟨hhead, htail⟩ := List.forall_mem_cons.mp hguest
    obtain ⟨hlen, hlens⟩ := List.forall_mem_cons.mp htyped
    by_cases htakes : Request.Takes virtioBlkTOut desc
    · rw [taken_cons_pos htakes]
      cases hrange : vq.guestRange desc.addr desc.len with
      | none =>
        have hempty := hhead.empty hsized hrange
        rw [moveData_none htakes hrange] at h ⊢
        have hrest := ih htail hlens hcur hshows h
        have hlengths : lengths (desc :: taken virtioBlkTOut descs) = 0 :: lengths (taken virtioBlkTOut descs) := by
          rw [lengths, List.map_cons, hempty]
          rfl
        have hbuffers : buffers vq r.mem (desc :: taken virtioBlkTOut descs) =
            [] :: buffers vq r.mem (taken virtioBlkTOut descs) := by
          rw [buffers, List.map_cons, hempty]
          rfl
        rw [hlengths, hbuffers, Fits, placeAll, List.length_nil, nextSector_zero hcur, writeBytes_nil]
        exact ⟨⟨byteOffset_lt cur, hrest.1⟩, hrest.2⟩
      | some offset =>
        obtain ⟨hok, hstep⟩ := moveData_some htakes hrange h
        rw [hstep] at h ⊢
        rw [move_out] at hok
        obtain ⟨haccepts, hwritten⟩ := doWrite_ok hshows hok
        rw [readBytes_length] at haccepts
        have hend := accepts_lt (Nat.lt_trans hlen (by decide)) haccepts
        have hmem : ((r.move env virtioBlkTOut cur desc offset).2.done virtioBlkTOut desc).mem = r.mem :=
          writeBytes_nil r.mem offset
        have hbytes := @guestBytes_eq vq r.mem _ _ _ (hhead.backing_eq hsized hrange)
        have hrest := ih htail hlens (nextSector_lt cur desc.len) hwritten h
        rw [hmem, ← hbytes] at hrest
        refine ⟨⟨hend, hrest.1⟩, ?_⟩
        rw [buffers, List.map_cons, placeAll, guestBytes_length]
        exact hrest.2
    · rw [taken_cons_neg htakes]
      rw [moveData_skip htakes] at h ⊢
      exact ih htail hlens hcur hshows h

def Frame (vq : Virtqueue) (descs : List Descriptor) (mem mem' : ByteStore) : Prop :=
  ∀ a, (∀ desc ∈ descs, ∀ i < desc.len, vq.layout.backing (desc.addr + i) ≠ some a) → mem' a = mem a

def descSpan (desc : Descriptor) : Span := ⟨desc.addr, desc.len⟩

theorem backing_injective (hsized : Sized vq) {addr addr' host : Nat} (h : vq.layout.backing addr = some host)
    (h' : vq.layout.backing addr' = some host) : addr = addr' := by
  have hhole := hsized.hole
  have hcases := backing_eq_some.mp h
  have hcases' := backing_eq_some.mp h'
  omega

theorem Frame.guestBytes_eq {mem mem' : ByteStore} (h : Frame vq descs mem mem') (hsized : Sized vq) {addr len : Nat}
    (hguest : InGuest vq addr len) (hapart : ∀ desc ∈ descs, (Span.mk addr len).Apart (descSpan desc)) :
    guestBytes vq mem' addr len = guestBytes vq mem addr len := by
  apply List.map_congr_left
  intro i hi
  rw [List.mem_range] at hi
  obtain ⟨host, hhost⟩ := hguest i hi
  rw [hhost, Option.map_some, Option.map_some, h host ?_]
  intro desc hdesc j hj hsame
  have haddr := backing_injective hsized hhost hsame
  exact hapart desc hdesc (addr + i) ⟨Nat.le_add_right _ _, Nat.add_lt_add_left hi _⟩
    ⟨haddr ▸ Nat.le_add_right _ _, haddr ▸ Nat.add_lt_add_left hj _⟩

theorem Frame.cons {mem mem' : ByteStore} {bytes : List UInt8}
    (hbacking : ∀ i < desc.len, vq.layout.backing (desc.addr + i) = some (offset + i)) (hbytes : bytes.length = desc.len)
    (h : Frame vq descs (writeBytes mem offset bytes) mem') : Frame vq (desc :: descs) mem mem' := by
  intro a ha
  obtain ⟨hhead, htail⟩ := List.forall_mem_cons.mp ha
  rw [h a htail]
  apply writeBytes_outside
  by_contra hin
  apply hhead (a - offset) (by omega)
  rw [hbacking (a - offset) (by omega)]
  congr 1
  omega

theorem moveData_in (hsized : Sized vq) (hguest : ∀ desc ∈ descs, InGuest vq desc.addr desc.len)
    (htyped : ∀ desc ∈ descs, desc.len < 2 ^ 32) (hcur : cur < 2 ^ 64)
    (hapart : ((taken virtioBlkTIn descs).map descSpan).Pairwise Span.Apart)
    (hshows : r.dev.backend.Shows env base content)
    (h : (Request.moveData env vq virtioBlkTIn cur descs r).1 = some virtioBlkSOk) :
    Fits cur (lengths (taken virtioBlkTIn descs)) ∧
      (Request.moveData env vq virtioBlkTIn cur descs r).2.dev.backend.Shows env base content ∧
      Frame vq (taken virtioBlkTIn descs) r.mem (Request.moveData env vq virtioBlkTIn cur descs r).2.mem ∧
      (buffers vq (Request.moveData env vq virtioBlkTIn cur descs r).2.mem (taken virtioBlkTIn descs)).flatten =
        readAll cur (lengths (taken virtioBlkTIn descs)) content := by
  induction descs generalizing cur r with
  | nil => exact ⟨trivial, hshows, fun _ _ => rfl, rfl⟩
  | cons desc descs ih =>
    obtain ⟨hhead, htail⟩ := List.forall_mem_cons.mp hguest
    obtain ⟨hlen, hlens⟩ := List.forall_mem_cons.mp htyped
    by_cases htakes : Request.Takes virtioBlkTIn desc
    · rw [taken_cons_pos htakes] at hapart ⊢
      rw [List.map_cons, List.pairwise_cons] at hapart
      cases hrange : vq.guestRange desc.addr desc.len with
      | none =>
        have hempty := hhead.empty hsized hrange
        rw [moveData_none htakes hrange] at h ⊢
        obtain ⟨hfits, hdisk, hframe, hread⟩ := ih htail hlens hcur hapart.2 hshows h
        have hlengths : lengths (desc :: taken virtioBlkTIn descs) = 0 :: lengths (taken virtioBlkTIn descs) := by
          rw [lengths, List.map_cons, hempty]
          rfl
        refine ⟨?_, hdisk, ?_, ?_⟩
        · rw [hlengths]
          exact ⟨byteOffset_lt cur, by rwa [nextSector_zero hcur]⟩
        · exact fun a ha => hframe a (List.forall_mem_cons.mp ha).2
        · rw [buffers, List.map_cons, hempty, hlengths, readAll, nextSector_zero hcur]
          exact hread
      | some offset =>
        obtain ⟨hok, hstep⟩ := moveData_some htakes hrange h
        rw [hstep] at h ⊢
        rw [move_in] at hok
        obtain ⟨haccepts, hput, hdisk⟩ := doRead_ok hshows hok
        have hend := accepts_lt (Nat.lt_trans hlen (by decide)) haccepts
        have hbacking := hhead.backing_eq hsized hrange
        have hmem : ((r.move env virtioBlkTIn cur desc offset).2.done virtioBlkTIn desc).mem =
            writeBytes r.mem offset (readBytes content (VirtioBlock.byteOffset cur) desc.len) := by
          rw [move_in, ← hput]
          rfl
        have hdev : ((r.move env virtioBlkTIn cur desc offset).2.done virtioBlkTIn desc).dev.backend.Shows env base
            content := by
          rw [move_in]
          exact hdisk
        obtain ⟨hfits, hdisk', hframe, hread⟩ := ih htail hlens (nextSector_lt cur desc.len) hapart.2 hdev h
        refine ⟨⟨hend, hfits⟩, hdisk', ?_, ?_⟩
        · rw [hmem] at hframe
          exact hframe.cons hbacking (readBytes_length _ _ _)
        · have hkept := hframe.guestBytes_eq hsized hhead fun desc' hdesc' =>
            hapart.1 _ (List.mem_map_of_mem hdesc')
          have hfirst := @guestBytes_eq vq
            ((r.move env virtioBlkTIn cur desc offset).2.done virtioBlkTIn desc).mem _ _ _ hbacking
          have hback := readBytes_writeBytes r.mem offset (readBytes content (VirtioBlock.byteOffset cur) desc.len)
          rw [readBytes_length] at hback
          rw [hfirst, hmem, hback] at hkept
          rw [buffers, List.map_cons, List.flatten_cons, hkept, lengths, List.map_cons, readAll]
          congr 1
    · rw [taken_cons_neg htakes] at hapart ⊢
      rw [moveData_skip htakes] at h ⊢
      exact ih htail hlens hcur hapart hshows h

end Moves

structure Parsed where
  requestType : Nat
  sector : Nat
  data : List Descriptor
  statusDesc : Descriptor

def parsed (vq : Virtqueue) (mem : ByteStore) (chain : DescriptorChain) : Option Parsed :=
  match chain.descriptors with
  | headerDesc :: desc :: descs =>
    if headerDesc.len < 16 then none
    else (vq.guestRead mem headerDesc.addr headerDesc.len).map fun header =>
      ⟨requestTypeOf header, sectorOf header, (desc :: descs).dropLast,
        (desc :: descs).getLast (List.cons_ne_nil desc descs)⟩
  | _ => none

theorem process_parsed {B : Type} [Storage.Backing B] {env : Env B} {dev : VirtioBlock B} {vq : Virtqueue}
    {mem : ByteStore} {chain : DescriptorChain} {p : Parsed} (h : parsed vq mem chain = some p) :
    processDescriptorChain env dev mem chain vq =
      (Request.start dev mem).dispatch env vq p.requestType p.sector p.data p.statusDesc := by
  obtain ⟨index, descriptors⟩ := chain
  rcases descriptors with _ | ⟨headerDesc, _ | ⟨desc, descs⟩⟩
  · cases h
  · cases h
  · unfold processDescriptorChain
    dsimp only [parsed] at h ⊢
    by_cases hlen : headerDesc.len < 16
    · rw [if_pos hlen] at h
      cases h
    · rw [if_neg hlen] at h ⊢
      obtain ⟨header, hheader, rfl⟩ := Option.map_eq_some_iff.mp h
      rw [hheader]

structure ValidRequest (vq : Virtqueue) (mem : ByteStore) (chain : DescriptorChain) where
  headerDesc : Descriptor
  data : List Descriptor
  statusDesc : Descriptor
  descriptors : chain.descriptors = headerDesc :: (data ++ [statusDesc])
  headerLen : 16 ≤ headerDesc.len
  header : InGuest vq headerDesc.addr headerDesc.len
  guest : ∀ desc ∈ data, InGuest vq desc.addr desc.len
  typed : ∀ desc ∈ data, desc.len < 2 ^ 32
  statusLen : 1 ≤ statusDesc.len
  status : InGuest vq statusDesc.addr statusDesc.len
  statusWritable : statusDesc.flags &&& vringDescFWrite ≠ 0
  apart : ((taken virtioBlkTIn data).map descSpan ++ [Span.mk statusDesc.addr 1]).Pairwise Span.Apart

section Finish

variable {B : Type} {env : Env B} {r : Request B} {vq : Virtqueue} {statusDesc : Descriptor}
  {status : Option Nat}

theorem finish_dev : (r.finish vq statusDesc status).dev = r.dev := by
  unfold Request.finish
  split
  · rfl
  · split
    · split
      · rfl
      · rfl
    · rfl

theorem status_of_finish {s : Nat} (hnone : r.status = none) (h : (r.finish vq statusDesc status).status = some s) :
    status = some s := by
  unfold Request.finish at h
  split at h
  · rw [hnone] at h
    cases h
  · split at h
    · split at h
      · rw [hnone] at h
        cases h
      · exact h
    · rw [hnone] at h
      cases h

theorem finish_frame (hsized : Sized vq) (hlen : 1 ≤ statusDesc.len)
    (hguest : InGuest vq statusDesc.addr statusDesc.len) :
    Frame vq [{ statusDesc with len := 1 }] r.mem (r.finish vq statusDesc status).mem := by
  obtain ⟨offset, hrange, hbacking⟩ := hguest.range hsized hlen
  cases status with
  | none => exact fun _ _ => rfl
  | some st =>
    have hmem : (r.finish vq statusDesc (some st)).mem = writeBytes r.mem offset [UInt8.ofNat st] := by
      unfold Request.finish Virtqueue.writeDescriptorData
      dsimp only
      rw [hrange]
      dsimp only
      rw [if_neg (by omega)]
      rfl
    rw [hmem]
    have hbyte : ∀ i < ({ statusDesc with len := 1 } : Descriptor).len,
        vq.layout.backing (({ statusDesc with len := 1 } : Descriptor).addr + i) = some (offset + i) := by
      intro i hi
      exact hbacking i (Nat.lt_of_lt_of_le hi hlen)
    exact Frame.cons hbyte rfl fun _ _ => rfl

variable [Storage.Backing B]

theorem moveData_status {requestType cur : Nat} {descs : List Descriptor} :
    (Request.moveData env vq requestType cur descs r).2.status = r.status := by
  induction descs generalizing cur r with
  | nil => rfl
  | cons desc descs ih =>
    unfold Request.moveData
    split
    · split
      · exact ih
      · dsimp only
        split
        · rw [ih]
          unfold Request.done Request.count
          split
          · rfl
          · rfl
        · rfl
    · exact ih

end Finish

namespace ValidRequest

variable {B : Type} [Storage.Backing B] {env : Env B} {base content : ByteStore} {dev : VirtioBlock B} {vq : Virtqueue}
  {mem : ByteStore} {chain : DescriptorChain}

def requestType (q : ValidRequest vq mem chain) : Nat :=
  requestTypeOf (guestBytes vq mem q.headerDesc.addr q.headerDesc.len)

def sector (q : ValidRequest vq mem chain) : Nat := sectorOf (guestBytes vq mem q.headerDesc.addr q.headerDesc.len)

theorem sector_lt (q : ValidRequest vq mem chain) : q.sector < 2 ^ 64 := by
  unfold sector sectorOf
  have hlt := leNat_lt ((guestBytes vq mem q.headerDesc.addr q.headerDesc.len).drop 8 |>.take 8)
  have hlen := List.length_take_le 8 ((guestBytes vq mem q.headerDesc.addr q.headerDesc.len).drop 8)
  calc _ < 256 ^ _ := hlt
    _ ≤ 256 ^ 8 := Nat.pow_le_pow_right (by decide) hlen
    _ = 2 ^ 64 := by decide

theorem parsed_eq (q : ValidRequest vq mem chain) (hsized : Sized vq) :
    parsed vq mem chain = some ⟨q.requestType, q.sector, q.data, q.statusDesc⟩ := by
  have hlen := q.headerLen
  obtain ⟨offset, hrange, hbacking⟩ := q.header.range hsized (by omega)
  have hheader : vq.guestRead mem q.headerDesc.addr q.headerDesc.len =
      some (guestBytes vq mem q.headerDesc.addr q.headerDesc.len) := by
    rw [Virtqueue.guestRead, hrange, guestBytes_eq hbacking]
    rfl
  unfold parsed
  rw [q.descriptors]
  cases hdata : q.data with
  | nil =>
    dsimp only [List.nil_append]
    rw [if_neg (by omega), hheader]
    rfl
  | cons desc descs =>
    dsimp only [List.cons_append]
    rw [if_neg (by omega), hheader]
    have hinit : (desc :: (descs ++ [q.statusDesc])).dropLast = desc :: descs := by
      rw [← List.cons_append, List.dropLast_concat]
    have hlast : (desc :: (descs ++ [q.statusDesc])).getLast (List.cons_ne_nil _ _) = q.statusDesc :=
      @List.getLast_concat _ q.statusDesc (desc :: descs)
    rw [hinit, hlast]
    rfl

theorem process_eq (q : ValidRequest vq mem chain) (hsized : Sized vq) :
    processDescriptorChain env dev mem chain vq =
      (Request.start dev mem).dispatch env vq q.requestType q.sector q.data q.statusDesc :=
  process_parsed (q.parsed_eq hsized)

structure Written (env : Env B) (base content : ByteStore) (q : ValidRequest vq mem chain) (r : Request B) : Prop where
  disk : r.dev.backend.Shows env base
    (writeBytes content (q.sector * sectorSize) (buffers vq mem (taken virtioBlkTOut q.data)).flatten)

structure Filled (env : Env B) (base content : ByteStore) (q : ValidRequest vq mem chain) (r : Request B) : Prop where
  bytes : (buffers vq r.mem (taken virtioBlkTIn q.data)).flatten =
    readBytes content (q.sector * sectorSize) (lengths (taken virtioBlkTIn q.data)).sum
  disk : r.dev.backend.Shows env base content

def Fresh (content : ByteStore) (q : ValidRequest vq mem chain) : Prop :=
  ∀ p b, q.sector * sectorSize + (lengths (taken virtioBlkTOut q.data)).sum = p + 1 →
    (buffers vq mem (taken virtioBlkTOut q.data)).flatten.getLast? = some b → content p ≠ b

def Distinct (content : ByteStore) (q : ValidRequest vq mem chain) : Prop :=
  reachedEnd q.sector (lengths (taken virtioBlkTIn q.data)) ≠
      q.sector * sectorSize + (lengths (taken virtioBlkTIn q.data)).sum →
    content (reachedEnd q.sector (lengths (taken virtioBlkTIn q.data)) - 1) ≠
      content (q.sector * sectorSize + (lengths (taken virtioBlkTIn q.data)).sum - 1)

section Runs

variable {q : ValidRequest vq mem chain}

theorem moved_of_ok (hsized : Sized vq) (htype : q.requestType = virtioBlkTIn ∨ q.requestType = virtioBlkTOut)
    (hok : (processDescriptorChain env dev mem chain vq).status = some virtioBlkSOk) :
    (Request.moveData env vq q.requestType q.sector q.data (Request.start dev mem)).1 = some virtioBlkSOk ∧
      processDescriptorChain env dev mem chain vq =
        (Request.moveData env vq q.requestType q.sector q.data (Request.start dev mem)).2.finish vq q.statusDesc
          (Request.moveData env vq q.requestType q.sector q.data (Request.start dev mem)).1 := by
  have hprocess : processDescriptorChain env dev mem chain vq =
      (Request.moveData env vq q.requestType q.sector q.data (Request.start dev mem)).2.finish vq q.statusDesc
        (Request.moveData env vq q.requestType q.sector q.data (Request.start dev mem)).1 := by
    rw [q.process_eq hsized, Request.dispatch, if_pos]
    exact htype.elim .inl fun hout => .inr (.inl hout)
  refine ⟨?_, hprocess⟩
  rw [hprocess] at hok
  exact status_of_finish moveData_status hok

theorem out_disk (hsized : Sized vq) (htype : q.requestType = virtioBlkTOut)
    (hshows : dev.backend.Shows env base content)
    (hok : (processDescriptorChain env dev mem chain vq).status = some virtioBlkSOk) :
    Fits q.sector (lengths (taken virtioBlkTOut q.data)) ∧
      (processDescriptorChain env dev mem chain vq).dev.backend.Shows env base
        (placeAll q.sector (buffers vq mem (taken virtioBlkTOut q.data)) content) := by
  obtain ⟨hmoved, hprocess⟩ := moved_of_ok hsized (.inr htype) hok
  rw [htype] at hmoved hprocess
  rw [hprocess, finish_dev]
  exact moveData_out hsized q.guest q.typed q.sector_lt hshows hmoved

theorem written_of_splits (hsized : Sized vq) (htype : q.requestType = virtioBlkTOut)
    (hshows : dev.backend.Shows env base content)
    (hok : (processDescriptorChain env dev mem chain vq).status = some virtioBlkSOk)
    (h : Splits q.sector (lengths (taken virtioBlkTOut q.data))) :
    Written env base content q (processDescriptorChain env dev mem chain vq) := by
  obtain ⟨hfits, hdisk⟩ := out_disk hsized htype hshows hok
  have hlens : (buffers vq mem (taken virtioBlkTOut q.data)).map List.length = lengths (taken virtioBlkTOut q.data) :=
    buffers_lengths mem
  rw [← hlens] at hfits h
  rw [placeAll_splits hfits h] at hdisk
  exact ⟨hdisk⟩

theorem splits_of_written (hsized : Sized vq) (htype : q.requestType = virtioBlkTOut)
    (hshows : dev.backend.Shows env base content)
    (hok : (processDescriptorChain env dev mem chain vq).status = some virtioBlkSOk) (hfresh : Fresh content q)
    (h : Written env base content q (processDescriptorChain env dev mem chain vq)) :
    Splits q.sector (lengths (taken virtioBlkTOut q.data)) := by
  by_contra hnot
  obtain ⟨hfits, hdisk⟩ := out_disk hsized htype hshows hok
  have hsame := hdisk.unique h.disk
  have hlens : (buffers vq mem (taken virtioBlkTOut q.data)).map List.length = lengths (taken virtioBlkTOut q.data) :=
    buffers_lengths mem
  have hsum : (lengths (taken virtioBlkTOut q.data)).sum ≠ 0 := fun hzero => hnot (.inl hzero)
  obtain ⟨n, hn⟩ := Nat.exists_eq_succ_of_ne_zero hsum
  have hlength : (buffers vq mem (taken virtioBlkTOut q.data)).flatten.length = n + 1 := by
    rw [List.length_flatten, hlens, hn]
  have hp : q.sector * sectorSize + (lengths (taken virtioBlkTOut q.data)).sum = q.sector * sectorSize + n + 1 := by
    rw [hn, Nat.succ_eq_add_one, ← Nat.add_assoc]
  -- the last byte of the range is written by neither, and it is not what it should be
  have hkept : placeAll q.sector (buffers vq mem (taken virtioBlkTOut q.data)) content (q.sector * sectorSize + n) =
      content (q.sector * sectorSize + n) := by
    apply placeAll_not_splits
    · rwa [hlens]
    · rwa [hlens]
    · rwa [hlens]
  have hlt : n < (buffers vq mem (taken virtioBlkTOut q.data)).flatten.length := by omega
  rw [hsame, writeBytes_inside hlt] at hkept
  have hlast : (buffers vq mem (taken virtioBlkTOut q.data)).flatten.getLast? =
      some ((buffers vq mem (taken virtioBlkTOut q.data)).flatten[n]) := by
    rw [List.getLast?_eq_getElem?, hlength, Nat.add_sub_cancel, List.getElem?_eq_getElem hlt]
  exact hfresh _ _ hp hlast hkept.symm

theorem in_buffers (hsized : Sized vq) (htype : q.requestType = virtioBlkTIn)
    (hshows : dev.backend.Shows env base content)
    (hok : (processDescriptorChain env dev mem chain vq).status = some virtioBlkSOk) :
    Fits q.sector (lengths (taken virtioBlkTIn q.data)) ∧
      (processDescriptorChain env dev mem chain vq).dev.backend.Shows env base content ∧
      (buffers vq (processDescriptorChain env dev mem chain vq).mem (taken virtioBlkTIn q.data)).flatten =
        readAll q.sector (lengths (taken virtioBlkTIn q.data)) content := by
  obtain ⟨hmoved, hprocess⟩ := moved_of_ok hsized (.inl htype) hok
  rw [htype] at hmoved hprocess
  have hapart := List.pairwise_append.mp q.apart
  obtain ⟨hfits, hdisk, -, hread⟩ := moveData_in hsized q.guest q.typed q.sector_lt hapart.1 hshows hmoved
  have hframe : Frame vq [{ q.statusDesc with len := 1 }] _
      ((Request.moveData env vq virtioBlkTIn q.sector q.data (Request.start dev mem)).2.finish vq q.statusDesc
        (Request.moveData env vq virtioBlkTIn q.sector q.data (Request.start dev mem)).1).mem :=
    finish_frame hsized q.statusLen q.status
  refine ⟨hfits, ?_, ?_⟩
  · rw [hprocess, finish_dev]
    exact hdisk
  · rw [hprocess, ← hread]
    congr 1
    apply List.map_congr_left
    intro desc hdesc
    apply hframe.guestBytes_eq hsized (q.guest desc (List.mem_of_mem_filter hdesc))
    intro byte hbyte
    rw [List.mem_singleton.mp hbyte]
    exact hapart.2.2 _ (List.mem_map_of_mem hdesc) _ (List.mem_singleton_self _)

theorem filled_of_splits (hsized : Sized vq) (htype : q.requestType = virtioBlkTIn)
    (hshows : dev.backend.Shows env base content)
    (hok : (processDescriptorChain env dev mem chain vq).status = some virtioBlkSOk)
    (h : Splits q.sector (lengths (taken virtioBlkTIn q.data))) :
    Filled env base content q (processDescriptorChain env dev mem chain vq) := by
  obtain ⟨hfits, hdisk, hread⟩ := in_buffers hsized htype hshows hok
  rw [readAll_splits hfits h] at hread
  exact ⟨hread, hdisk⟩

theorem splits_of_filled (hsized : Sized vq) (htype : q.requestType = virtioBlkTIn)
    (hshows : dev.backend.Shows env base content)
    (hok : (processDescriptorChain env dev mem chain vq).status = some virtioBlkSOk) (hdistinct : Distinct content q)
    (h : Filled env base content q (processDescriptorChain env dev mem chain vq)) :
    Splits q.sector (lengths (taken virtioBlkTIn q.data)) := by
  by_contra hnot
  obtain ⟨hfits, -, hread⟩ := in_buffers hsized htype hshows hok
  have hsum : (lengths (taken virtioBlkTIn q.data)).sum ≠ 0 := fun hzero => hnot (.inl hzero)
  have hlast := @readAll_last q.sector _ content hsum
  rw [← hread, h.bytes, readBytes_getElem? _ _ _ _ (by omega), Option.some_inj] at hlast
  apply hdistinct (reachedEnd_not_splits hfits hnot)
  rw [← hlast]
  congr 1
  omega

end Runs

/-- A request that reports OK and is split at sectors has moved its buffers to or from the range of the disk at its sector.
Any other has not, unless the bytes at the end of the range happen to be the same. -/
theorem addressed_iff {B : Type} [Storage.Backing B] {env : Env B} {base content : ByteStore} {dev : VirtioBlock B}
    {vq : Virtqueue} {mem : ByteStore} {chain : DescriptorChain} (q : ValidRequest vq mem chain) (hsized : Sized vq)
    (hshows : dev.backend.Shows env base content)
    (hok : (processDescriptorChain env dev mem chain vq).status = some virtioBlkSOk) :
    (q.requestType = virtioBlkTOut →
      (Splits q.sector (lengths (taken virtioBlkTOut q.data)) →
        Written env base content q (processDescriptorChain env dev mem chain vq)) ∧
      (Fresh content q → (Written env base content q (processDescriptorChain env dev mem chain vq) ↔
        Splits q.sector (lengths (taken virtioBlkTOut q.data))))) ∧
    (q.requestType = virtioBlkTIn →
      (Splits q.sector (lengths (taken virtioBlkTIn q.data)) →
        Filled env base content q (processDescriptorChain env dev mem chain vq)) ∧
      (Distinct content q → (Filled env base content q (processDescriptorChain env dev mem chain vq) ↔
        Splits q.sector (lengths (taken virtioBlkTIn q.data))))) := by
  constructor
  · intro htype
    have hsplits := @written_of_splits B _ env base content dev vq mem chain q hsized htype hshows hok
    exact ⟨hsplits, fun hfresh => ⟨splits_of_written hsized htype hshows hok hfresh, hsplits⟩⟩
  · intro htype
    have hsplits := @filled_of_splits B _ env base content dev vq mem chain q hsized htype hshows hok
    exact ⟨hsplits, fun hdistinct => ⟨splits_of_filled hsized htype hshows hok hdistinct, hsplits⟩⟩

section TwoBuffers

def flatQueue : Virtqueue := Virtqueue.new 256 true 0x10000

theorem flatQueue_sized : Sized flatQueue := ⟨by decide, by decide, by decide⟩

theorem flatQueue_inGuest {addr len : Nat} (h : addr + len ≤ 0x10000) : InGuest flatQueue addr len := by
  intro i hi
  refine ⟨addr + i, backing_eq_some.mpr ⟨rfl, by omega, ?_, .inl ⟨.inl rfl, rfl⟩⟩⟩
  change addr + i < 0x10000
  omega

def writeMem : ByteStore := fun a => if a = 0x1000 ∨ a = 0x2000 then 1 else if a = 0x3000 then 2 else 0

def writeChain (len : Nat) : DescriptorChain :=
  ⟨0, [⟨0x1000, 16, 1, 1⟩, ⟨0x2000, len, 1, 2⟩, ⟨0x3000, 1, 1, 3⟩, ⟨0x4000, 1, 2, 0⟩]⟩

def writeData (len : Nat) : List Descriptor := [⟨0x2000, len, 1, 2⟩, ⟨0x3000, 1, 1, 3⟩]

section Data

variable {len : Nat}

theorem writeData_guest (hlen : len ≤ 0x1000) : ∀ desc ∈ writeData len, InGuest flatQueue desc.addr desc.len := by
  have hend : 0x2000 + len ≤ 0x10000 := by omega
  rw [writeData, List.forall_mem_cons, List.forall_mem_singleton]
  exact ⟨flatQueue_inGuest hend, flatQueue_inGuest (by decide)⟩

theorem writeData_typed (hlen : len ≤ 0x1000) : ∀ desc ∈ writeData len, desc.len < 2 ^ 32 := by
  have hlt : len < 2 ^ 32 := by omega
  rw [writeData, List.forall_mem_cons, List.forall_mem_singleton]
  exact ⟨hlt, by decide⟩

theorem writeData_apart :
    ((taken virtioBlkTIn (writeData len)).map descSpan ++ [Span.mk 0x4000 1]).Pairwise Span.Apart := by
  have hflag : 1 &&& vringDescFWrite = 0 := by decide
  have hread : ∀ addr len next, ¬ Request.Takes virtioBlkTIn ⟨addr, len, 1, next⟩ := fun _ _ _ h => h hflag
  rw [writeData, taken_cons_neg (hread _ _ _), taken_cons_neg (hread _ _ _)]
  exact List.pairwise_singleton _ _

def writeRequest (hlen : len ≤ 0x1000) : ValidRequest flatQueue writeMem (writeChain len) where
  headerDesc := ⟨0x1000, 16, 1, 1⟩
  data := writeData len
  statusDesc := ⟨0x4000, 1, 2, 0⟩
  descriptors := rfl
  headerLen := Nat.le_refl 16
  header := flatQueue_inGuest (Nat.le_of_ble_eq_true rfl)
  guest := writeData_guest hlen
  typed := writeData_typed hlen
  statusLen := Nat.le_refl 1
  status := flatQueue_inGuest (Nat.le_of_ble_eq_true rfl)
  statusWritable := Nat.succ_ne_zero 1
  apart := writeData_apart

end Data

def blankContent : ByteStore := fun _ => 0

theorem blankDisk_shows (sectors : Nat) :
    (blankDisk sectors).backend.Shows plainEnv blankContent (HostFile.empty.setLen (sectors * sectorSize)).data := rfl

def wholeSector : ValidRequest flatQueue writeMem (writeChain 512) := writeRequest (Nat.le_of_ble_eq_true rfl)

def singleBytes : ValidRequest flatQueue writeMem (writeChain 1) := writeRequest (Nat.le_of_ble_eq_true rfl)

theorem addressed_wholeSector :
    Written plainEnv blankContent (HostFile.empty.setLen (2 * sectorSize)).data wholeSector
      (processDescriptorChain plainEnv (blankDisk 2) writeMem (writeChain 512) flatQueue) := by
  have hok : (processDescriptorChain plainEnv (blankDisk 2) writeMem (writeChain 512) flatQueue).status =
      some virtioBlkSOk := by
    decide +kernel
  have htype : wholeSector.requestType = virtioBlkTOut := by decide
  have hsector : wholeSector.sector < 2 ^ 55 := by decide
  have haligned : Aligned (lengths (taken virtioBlkTOut wholeSector.data)) :=
    ⟨fun _ => Nat.dvd_refl 512, fun hne => absurd rfl hne, trivial⟩
  have hsplits : Splits wholeSector.sector (lengths (taken virtioBlkTOut wholeSector.data)) := .inr ⟨hsector, haligned⟩
  exact ((addressed_iff wholeSector flatQueue_sized (blankDisk_shows 2) hok).1 htype).1 hsplits

theorem addressed_fails :
    (processDescriptorChain plainEnv (blankDisk 2) writeMem (writeChain 1) flatQueue).status = some virtioBlkSOk ∧
      ¬ Written plainEnv blankContent (HostFile.empty.setLen (2 * sectorSize)).data singleBytes
        (processDescriptorChain plainEnv (blankDisk 2) writeMem (writeChain 1) flatQueue) := by
  have hok : (processDescriptorChain plainEnv (blankDisk 2) writeMem (writeChain 1) flatQueue).status =
      some virtioBlkSOk := by
    decide
  have htype : singleBytes.requestType = virtioBlkTOut := by decide
  refine ⟨hok, fun hwritten => ?_⟩
  have hsame := (out_disk flatQueue_sized htype (blankDisk_shows 2) hok).2.unique hwritten.disk
  exact absurd (congrFun hsame 1) (by decide)

end TwoBuffers

end ValidRequest

end CloneVmm.Virtio.Block
