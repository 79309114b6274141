import CloneVmm.Virtio.BlockStatus
import CloneVmm.Virtio.FsChain
import Mathlib.Algebra.Order.BigOperators.Group.List

namespace CloneVmm.Virtio

open CloneVmm.Lib

section Places

variable (vq : Virtqueue) (chain : DescriptorChain)

def Writable (host : Nat) : Prop :=
  ∃ desc ∈ chain.descriptors, desc.flags &&& vringDescFWrite ≠ 0 ∧
    ∃ i < desc.len, vq.layout.backing (desc.addr + i) = some host

def Inside (s : Span) : Prop := ∀ host, s.Covers host → Writable vq chain host

/-- Memory is modified by the writes only, all of them are inside writable descriptors, and `reported` is their length. -/
structure Directed (mem mem' : ByteStore) (filled : List (Descriptor × Write)) (reported : Nat) : Prop where
  memory : mem' = applyAll mem filled
  inside : ∀ w ∈ filled, Inside vq chain w.2.span
  reported : reported = (filled.map fun w => w.2.data.length).sum

structure Placed (mem mem' : ByteStore) (filled : List (Descriptor × Write)) (spans : List Span) : Prop where
  memory : mem' = applyAll mem filled
  inside : (∀ w ∈ filled, Inside vq chain w.2.span) ↔ ∀ s ∈ spans, Inside vq chain s
  length : (filled.map fun w => w.2.data.length).sum = (spans.map Span.size).sum

def mapped (descs : List Descriptor) : List (Descriptor × Nat) :=
  descs.filterMap fun desc => (vq.guestRange desc.addr desc.len).map (desc, ·)

end Places

section Placing

variable {vq : Virtqueue} {chain : DescriptorChain} {mem mem' mem'' : ByteStore} {filled filled' : List (Descriptor × Write)}
  {spans spans' : List Span} {desc : Descriptor} {descs : List Descriptor} {offset reported : Nat}

theorem inside_of_empty {s : Span} (h : s.size = 0) : Inside vq chain s := by
  intro host hcovers
  have hlt := hcovers.2
  have hle := hcovers.1
  omega

theorem inside_of_inGuest (hsized : Sized vq) (hmem : desc ∈ chain.descriptors)
    (hflag : desc.flags &&& vringDescFWrite ≠ 0) (hguest : Block.InGuest vq desc.addr desc.len)
    (hrange : vq.guestRange desc.addr desc.len = some offset) {size : Nat} (hsize : size ≤ desc.len) :
    Inside vq chain ⟨offset, size⟩ := by
  intro host hcovers
  obtain ⟨i, rfl⟩ := Nat.exists_eq_add_of_le (show offset ≤ host from hcovers.1)
  have hi : i < desc.len := (Nat.lt_of_add_lt_add_left hcovers.2).trans_le hsize
  exact ⟨desc, hmem, hflag, i, hi, hguest.backing_eq hsized hrange i hi⟩

theorem Directed.frame (h : Directed vq chain mem mem' filled reported) {host : Nat} (hhost : ¬ Writable vq chain host) :
    mem' host = mem host := by
  rw [h.memory]
  apply applyAll_value _ mem (.inl rfl)
  exact fun w hw hcovers => absurd (h.inside w hw host hcovers) hhost

theorem Placed.of_empty (h : ∀ s ∈ spans, s.size = 0) : Placed vq chain mem mem [] spans := by
  refine ⟨rfl, iff_of_true (fun _ hw => absurd hw List.not_mem_nil) fun s hs => inside_of_empty (h s hs), ?_⟩
  rw [List.map_nil, List.sum_nil, eq_comm, List.sum_eq_zero_iff_forall_eq_nat, List.forall_mem_map]
  exact h

theorem Placed.single (bytes : List UInt8) :
    Placed vq chain mem (writeBytes mem offset bytes) [(desc, ⟨offset, bytes⟩)] [⟨offset, bytes.length⟩] := by
  refine ⟨rfl, ?_, rfl⟩
  rw [List.forall_mem_singleton, List.forall_mem_singleton]
  rfl

theorem Placed.idle : Placed vq chain mem (writeBytes mem offset []) [(desc, ⟨offset, []⟩)] [] := by
  refine ⟨rfl, ?_, rfl⟩
  rw [List.forall_mem_singleton]
  exact iff_of_true (inside_of_empty rfl) fun _ hs => absurd hs List.not_mem_nil

theorem Placed.append (h : Placed vq chain mem mem' filled spans) (h' : Placed vq chain mem' mem'' filled' spans') :
    Placed vq chain mem mem'' (filled ++ filled') (spans ++ spans') := by
  refine ⟨?_, ?_, ?_⟩
  · rw [applyAll_append, ← h.memory, h'.memory]
  · rw [List.forall_mem_append, List.forall_mem_append, h.inside, h'.inside]
  · rw [List.map_append, List.sum_append, List.map_append, List.sum_append, h.length, h'.length]

theorem Placed.directed_iff (h : Placed vq chain mem mem' filled spans) :
    Directed vq chain mem mem' filled reported ↔
      (∀ s ∈ spans, Inside vq chain s) ∧ reported = (spans.map Span.size).sum := by
  rw [← h.inside, ← h.length]
  exact ⟨fun hdirected => ⟨hdirected.inside, hdirected.reported⟩, fun hboth => ⟨h.memory, hboth.1, hboth.2⟩⟩

theorem mapped_cons_none (h : vq.guestRange desc.addr desc.len = none) : mapped vq (desc :: descs) = mapped vq descs := by
  rw [mapped, List.filterMap_cons, h]
  rfl

theorem mapped_cons_some (h : vq.guestRange desc.addr desc.len = some offset) :
    mapped vq (desc :: descs) = (desc, offset) :: mapped vq descs := by
  rw [mapped, List.filterMap_cons, h]
  rfl

end Placing

namespace Block

structure Transfer where
  desc : Descriptor
  offset : Nat
  moved : Nat
  ok : Bool
  deriving DecidableEq

namespace Transfer

def span (t : Transfer) : Span := ⟨t.offset, t.moved⟩

def counted (t : Transfer) : Nat := if t.ok then t.desc.len else 0

end Transfer

section Transfers

variable {B : Type} [Storage.Backing B] (env : Env B)

def VirtioBlock.reads : Nat → List (Descriptor × Nat) → VirtioBlock B → List Transfer
  | _, [], _ => []
  | cur, (desc, offset) :: targets, dev =>
    let result := dev.doRead env cur desc.len
    if result.1 = some virtioBlkSOk then
      ⟨desc, offset, result.2.1.length, true⟩ :: VirtioBlock.reads (nextSector cur desc.len) targets result.2.2
    else [⟨desc, offset, result.2.1.length, false⟩]

def transfers (dev : VirtioBlock B) (vq : Virtqueue) (p : Parsed) : List Transfer :=
  if p.requestType = virtioBlkTIn then dev.reads env p.sector (mapped vq (taken virtioBlkTIn p.data))
  else if p.requestType = virtioBlkTGetId then
    (mapped vq (taken virtioBlkTGetId p.data)).map fun target => ⟨target.1, target.2, target.1.len, true⟩
  else []

def statusSpans (vq : Virtqueue) (statusDesc : Descriptor) : List Span :=
  if statusDesc.len = 0 then []
  else (vq.guestRange statusDesc.addr statusDesc.len).toList.map fun offset => ⟨offset, 1⟩

def spansOf (dev : VirtioBlock B) (vq : Virtqueue) (p : Parsed) : List Span :=
  (transfers env dev vq p).map Transfer.span ++ statusSpans vq p.statusDesc

structure Orderly (dev : VirtioBlock B) (vq : Virtqueue) (chain : DescriptorChain) (p : Parsed) : Prop where
  inside : ∀ s ∈ spansOf env dev vq p, Inside vq chain s
  whole : ∀ t ∈ transfers env dev vq p, t.moved = t.counted
  length : ((spansOf env dev vq p).map Span.size).sum < 2 ^ 32

end Transfers

/-- From `r` to `r'` the spans have been written to, and `counted` bytes were counted. -/
structure Tracked {B : Type} (vq : Virtqueue) (chain : DescriptorChain) (r r' : Request B) (spans : List Span)
    (counted : Nat) : Prop where
  placed : ∃ filled, r'.filled = r.filled ++ filled ∧ Placed vq chain r.mem r'.mem filled spans
  total : r'.totalWritten = (r.totalWritten + counted) % 2 ^ 32

section Tracking

variable {B : Type} {vq : Virtqueue} {chain : DescriptorChain} {r r' r'' : Request B} {spans spans' : List Span}
  {counted counted' : Nat} {desc : Descriptor} {offset : Nat} {bytes : List UInt8}

theorem Tracked.refl (h : r.totalWritten < 2 ^ 32) (hmem : r'.mem = r.mem) (hfilled : r'.filled = r.filled)
    (htotal : r'.totalWritten = r.totalWritten) : Tracked vq chain r r' [] 0 := by
  refine ⟨⟨[], ?_, ?_⟩, ?_⟩
  · rw [hfilled, List.append_nil]
  · rw [hmem]
    exact .of_empty fun _ hs => absurd hs List.not_mem_nil
  · rw [htotal, Nat.add_zero, Nat.mod_eq_of_lt h]

theorem Tracked.trans (h : Tracked vq chain r r' spans counted) (h' : Tracked vq chain r' r'' spans' counted') :
    Tracked vq chain r r'' (spans ++ spans') (counted + counted') := by
  obtain ⟨filled, hfilled, hplaced⟩ := h.placed
  obtain ⟨filled', hfilled', hplaced'⟩ := h'.placed
  refine ⟨⟨filled ++ filled', ?_, hplaced.append hplaced'⟩, ?_⟩
  · rw [hfilled', hfilled, List.append_assoc]
  · rw [h'.total, h.total, Nat.mod_add_mod, Nat.add_assoc]

theorem Tracked.put (hmem : r'.mem = writeBytes r.mem offset bytes)
    (hfilled : r'.filled = r.filled ++ [(desc, ⟨offset, bytes⟩)])
    (htotal : r'.totalWritten = (r.totalWritten + counted) % 2 ^ 32) :
    Tracked vq chain r r' [⟨offset, bytes.length⟩] counted := by
  refine ⟨⟨_, hfilled, ?_⟩, htotal⟩
  rw [hmem]
  exact .single bytes

theorem Tracked.directed_iff {dev : VirtioBlock B} {mem : ByteStore}
    (h : Tracked vq chain (Request.start dev mem) r spans counted) :
    Directed vq chain mem r.mem r.filled r.totalWritten ↔
      (∀ s ∈ spans, Inside vq chain s) ∧ counted % 2 ^ 32 = (spans.map Span.size).sum := by
  obtain ⟨filled, hfilled, hplaced⟩ := h.placed
  have hnil : r.filled = filled := hfilled
  have htotal : r.totalWritten = counted % 2 ^ 32 := by
    rw [h.total]
    exact congrArg (· % 2 ^ 32) (Nat.zero_add counted)
  rw [hnil, htotal]
  exact hplaced.directed_iff

theorem Tracked.total_lt (h : Tracked vq chain r r' spans counted) : r'.totalWritten < 2 ^ 32 := by
  rw [h.total]
  exact Nat.mod_lt _ (Nat.two_pow_pos 32)

theorem done_mem {requestType : Nat} : (r.done requestType desc).mem = r.mem := by
  unfold Request.done
  split
  · rfl
  · rfl

theorem done_total {requestType : Nat} (h : requestType ≠ virtioBlkTOut) :
    (r.done requestType desc).totalWritten = (r.totalWritten + desc.len) % 2 ^ 32 := by
  unfold Request.done
  rw [if_neg h]
  rfl

theorem Tracked.cons {s : Span} (h : Tracked vq chain r r' [s] counted) (h' : Tracked vq chain r' r'' spans counted') :
    Tracked vq chain r r'' (s :: spans) (counted + counted') :=
  h.trans h'

theorem Tracked.done {requestType : Nat} (hne : requestType ≠ virtioBlkTOut) (hmem : r'.mem = writeBytes r.mem offset bytes)
    (hfilled : r'.filled = r.filled ++ [(desc, ⟨offset, bytes⟩)]) (htotal : r'.totalWritten = r.totalWritten) :
    Tracked vq chain r (r'.done requestType desc) [⟨offset, bytes.length⟩] desc.len := by
  refine .put (done_mem.trans hmem) (done_filled.trans hfilled) ?_
  rw [done_total hne, htotal]

theorem finish_tracked (hlt : r.totalWritten < 2 ^ 32) (statusDesc : Descriptor) (status : Nat) :
    Tracked vq chain r (r.finish vq statusDesc (some status)) (statusSpans vq statusDesc)
      ((statusSpans vq statusDesc).map Span.size).sum := by
  unfold Request.finish Virtqueue.writeDescriptorData statusSpans
  dsimp only
  cases hrange : vq.guestRange statusDesc.addr statusDesc.len with
  | none =>
    dsimp only
    have hempty : (if statusDesc.len = 0 then [] else (none : Option Nat).toList.map fun offset => Span.mk offset 1) = [] := by
      split
      · rfl
      · rfl
    rw [hempty]
    exact .refl hlt rfl rfl rfl
  | some offset =>
    dsimp only
    by_cases hlen : statusDesc.len = 0
    · rw [if_pos hlen, if_pos hlen]
      exact .refl hlt rfl rfl rfl
    · rw [if_neg hlen, if_neg hlen]
      exact @Tracked.put B vq chain r _ 1 statusDesc offset [UInt8.ofNat status] rfl rfl rfl

end Tracking

section Loop

variable {B : Type} [Storage.Backing B] {env : Env B} {vq : Virtqueue} {chain : DescriptorChain} {cur requestType : Nat}
  {descs : List Descriptor} {r : Request B}

theorem moveData_run {P : Nat → List (Descriptor × Nat) → Request B → Option Nat × Request B → Prop}
    (nil : ∀ cur r, P cur [] r (some virtioBlkSOk, r))
    (fail : ∀ cur desc offset targets r, (r.move env requestType cur desc offset).1 ≠ some virtioBlkSOk →
      P cur ((desc, offset) :: targets) r (r.move env requestType cur desc offset))
    (step : ∀ cur desc offset targets r result, (r.move env requestType cur desc offset).1 = some virtioBlkSOk →
      P (nextSector cur desc.len) targets ((r.move env requestType cur desc offset).2.done requestType desc) result →
        P cur ((desc, offset) :: targets) r result) :
    P cur (mapped vq (taken requestType descs)) r (Request.moveData env vq requestType cur descs r) := by
  induction descs generalizing cur r with
  | nil => exact nil cur r
  | cons desc descs ih =>
    by_cases htakes : Request.Takes requestType desc
    · rw [taken_cons_pos htakes]
      cases hrange : vq.guestRange desc.addr desc.len with
      | none =>
        rw [moveData_none htakes hrange, mapped_cons_none hrange]
        exact ih
      | some offset =>
        rw [mapped_cons_some hrange, Request.moveData, if_pos htakes, hrange]
        dsimp only
        by_cases hok : (r.move env requestType cur desc offset).1 = some virtioBlkSOk
        · rw [if_pos hok]
          exact step cur desc offset _ r _ hok ih
        · rw [if_neg hok]
          exact fail cur desc offset _ r hok
    · rw [taken_cons_neg htakes, moveData_skip htakes]
      exact ih

theorem moveData_reads (hlt : r.totalWritten < 2 ^ 32) :
    Tracked vq chain r (Request.moveData env vq virtioBlkTIn cur descs r).2
      ((r.dev.reads env cur (mapped vq (taken virtioBlkTIn descs))).map Transfer.span)
      ((r.dev.reads env cur (mapped vq (taken virtioBlkTIn descs))).map Transfer.counted).sum := by
  revert hlt
  apply @moveData_run B _ env vq cur virtioBlkTIn descs r fun cur targets r result =>
    r.totalWritten < 2 ^ 32 → Tracked vq chain r result.2 ((r.dev.reads env cur targets).map Transfer.span)
      ((r.dev.reads env cur targets).map Transfer.counted).sum
  · exact fun _ _ hlt => .refl hlt rfl rfl rfl
  · intro cur desc offset targets r hfail hlt
    rw [move_in] at hfail ⊢
    rw [VirtioBlock.reads, if_neg hfail]
    exact .put rfl rfl (Nat.mod_eq_of_lt hlt).symm
  · intro cur desc offset targets r result hok ih _
    rw [move_in] at hok ih
    rw [VirtioBlock.reads, if_pos hok, List.map_cons, List.map_cons, List.sum_cons]
    rw [done_dev] at ih
    have hne : virtioBlkTIn ≠ virtioBlkTOut := by decide
    have hone := @Tracked.done B vq chain r { r.fill desc offset (r.dev.doRead env cur desc.len).2.1 with
      dev := (r.dev.doRead env cur desc.len).2.2 } desc offset _ virtioBlkTIn hne rfl rfl rfl
    exact hone.cons (ih hone.total_lt)

theorem moveData_ids (hlt : r.totalWritten < 2 ^ 32) :
    Tracked vq chain r (Request.moveData env vq virtioBlkTGetId cur descs r).2
      ((mapped vq (taken virtioBlkTGetId descs)).map fun target => ⟨target.2, target.1.len⟩)
      ((mapped vq (taken virtioBlkTGetId descs)).map fun target => target.1.len).sum := by
  revert hlt
  apply @moveData_run B _ env vq cur virtioBlkTGetId descs r fun cur targets r result =>
    r.totalWritten < 2 ^ 32 → Tracked vq chain r result.2 (targets.map fun target => ⟨target.2, target.1.len⟩)
      (targets.map fun target => target.1.len).sum
  · exact fun _ _ hlt => .refl hlt rfl rfl rfl
  · intro cur desc offset targets r hfail
    rw [move_getId] at hfail
    exact absurd rfl hfail
  · intro cur desc offset targets r result hok ih _
    rw [move_getId] at ih
    rw [List.map_cons, List.map_cons, List.sum_cons]
    have hne : virtioBlkTGetId ≠ virtioBlkTOut := by decide
    have hone := @Tracked.done B vq chain r (r.fill desc offset (r.dev.diskId desc.len)) desc offset _ virtioBlkTGetId
      hne rfl rfl rfl
    have hrest := ih hone.total_lt
    rw [diskId_length] at hone
    exact hone.cons hrest

theorem moveData_idle (hlt : r.totalWritten < 2 ^ 32) :
    Tracked vq chain r (Request.moveData env vq virtioBlkTOut cur descs r).2 [] 0 := by
  have hidle : ∀ cur desc offset (r r' : Request B), r.totalWritten < 2 ^ 32 →
      r'.mem = (r.move env virtioBlkTOut cur desc offset).2.mem →
      r'.filled = (r.move env virtioBlkTOut cur desc offset).2.filled → r'.totalWritten = r.totalWritten →
        Tracked vq chain r r' [] 0 := by
    intro cur desc offset r r' hlt hmem hfilled htotal
    rw [move_out] at hmem hfilled
    refine ⟨⟨_, hfilled, ?_⟩, ?_⟩
    · rw [hmem]
      exact .idle
    · rw [htotal, Nat.add_zero, Nat.mod_eq_of_lt hlt]
  revert hlt
  apply @moveData_run B _ env vq cur virtioBlkTOut descs r fun _ _ r result =>
    r.totalWritten < 2 ^ 32 → Tracked vq chain r result.2 [] 0
  · exact fun _ _ hlt => .refl hlt rfl rfl rfl
  · exact fun cur desc offset _ r _ hlt => hidle cur desc offset r _ hlt rfl rfl rfl
  · intro cur desc offset targets r result _ ih hlt
    have hone := hidle cur desc offset r ((r.move env virtioBlkTOut cur desc offset).2.done virtioBlkTOut desc) hlt
      done_mem done_filled rfl
    exact hone.trans (ih hone.total_lt)

theorem fileStatus_ne_none (ok : Bool) : fileStatus ok ≠ none := by
  cases ok with
  | true => exact Option.some_ne_none _
  | false => exact Option.some_ne_none _

theorem doRead_status {dev : VirtioBlock B} {file : RawFile} (h : dev.backend = .raw file) (sector count : Nat) :
    (dev.doRead env sector count).1 ≠ none := by
  unfold VirtioBlock.doRead VirtioBlock.readBackend
  split
  · exact Option.some_ne_none _
  · rw [h]
    dsimp only
    split
    · exact Option.some_ne_none _
    · exact fileStatus_ne_none _

theorem doWrite_status {dev : VirtioBlock B} {file : RawFile} (h : dev.backend = .raw file) (sector : Nat)
    (data : List UInt8) : (dev.doWrite env sector data).1 ≠ none := by
  unfold VirtioBlock.doWrite VirtioBlock.writeBackend
  split
  · exact Option.some_ne_none _
  · split
    · exact Option.some_ne_none _
    · rw [h]
      dsimp only
      split
      · exact Option.some_ne_none _
      · exact fileStatus_ne_none _

theorem moveData_raw (htype : requestType = virtioBlkTIn ∨ requestType = virtioBlkTOut ∨ requestType = virtioBlkTGetId)
    (hraw : ∃ file, r.dev.backend = .raw file) : (Request.moveData env vq requestType cur descs r).1 ≠ none := by
  revert hraw
  apply @moveData_run B _ env vq cur requestType descs r fun _ _ r result =>
    (∃ file, r.dev.backend = .raw file) → result.1 ≠ none
  · exact fun _ _ _ => Option.some_ne_none _
  · rintro cur desc offset targets r - ⟨file, hfile⟩
    rcases htype with rfl | rfl | rfl
    · rw [move_in]
      exact doRead_status hfile _ _
    · rw [move_out]
      exact doWrite_status hfile _ _
    · rw [move_getId]
      exact Option.some_ne_none _
  · rintro cur desc offset targets r result - ih ⟨file, hfile⟩
    apply ih
    rw [done_dev]
    rcases htype with rfl | rfl | rfl
    · rw [move_in]
      exact doRead_raw hfile
    · rw [move_out]
      exact doWrite_raw hfile
    · rw [move_getId]
      exact ⟨file, hfile⟩

theorem reads_counted {dev : VirtioBlock B} {targets : List (Descriptor × Nat)} (hraw : ∃ file, dev.backend = .raw file) :
    ∀ t ∈ dev.reads env cur targets, t.counted ≤ t.moved := by
  induction targets generalizing cur dev with
  | nil => exact fun _ ht => absurd ht List.not_mem_nil
  | cons target targets ih =>
    obtain ⟨file, hfile⟩ := hraw
    obtain ⟨desc, offset⟩ := target
    rw [VirtioBlock.reads]
    by_cases hok : (dev.doRead env cur desc.len).1 = some virtioBlkSOk
    · rw [if_pos hok, List.forall_mem_cons]
      refine ⟨?_, ih (doRead_raw hfile)⟩
      obtain ⟨-, hput, -⟩ := doRead_ok (raw_shows env hfile) hok
      rw [hput, readBytes_length]
      exact Nat.le_refl _
    · rw [if_neg hok, List.forall_mem_singleton]
      exact Nat.zero_le _

end Loop

section Requests

variable {B : Type} [Storage.Backing B] {env : Env B} {dev : VirtioBlock B} {vq : Virtqueue} {mem : ByteStore}
  {chain : DescriptorChain} {p : Parsed} {file : RawFile}

theorem process_tracked (hparsed : parsed vq mem chain = some p) :
    ∃ (r : Request B) (outcome : Option Nat),
      Tracked vq chain (Request.start dev mem) r ((transfers env dev vq p).map Transfer.span)
        ((transfers env dev vq p).map Transfer.counted).sum ∧
      processDescriptorChain env dev mem chain vq = r.finish vq p.statusDesc outcome ∧
      ((∃ file, dev.backend = .raw file) → outcome ≠ none) := by
  have hlt : (Request.start dev mem).totalWritten < 2 ^ 32 := Nat.two_pow_pos 32
  by_cases hdata : p.HasData
  · refine ⟨_, _, ?_, process_data hparsed hdata, fun hraw => moveData_raw hdata hraw⟩
    unfold transfers
    rcases hdata with hin | hout | hid
    · rw [if_pos hin, hin]
      exact moveData_reads hlt
    · rw [hout, if_neg (by decide), if_neg (by decide)]
      exact moveData_idle hlt
    · rw [hid, if_neg (by decide), if_pos rfl, List.map_map, List.map_map]
      exact moveData_ids hlt
  · have hnone : transfers env dev vq p = [] := by
      unfold transfers
      rw [if_neg fun hin => hdata (.inl hin), if_neg fun hid => hdata (.inr (.inr hid))]
    have hother : ¬ (p.requestType = virtioBlkTIn ∨ p.requestType = virtioBlkTOut ∨ p.requestType = virtioBlkTGetId) :=
      hdata
    rw [hnone, process_parsed hparsed, Request.dispatch, if_neg hother]
    by_cases hflush : p.requestType = virtioBlkTFlush
    · rw [if_pos hflush]
      refine ⟨{ Request.start dev mem with dev := (dev.processRequest env virtioBlkTFlush 0 []).2.2 }, _,
        .refl hlt rfl rfl rfl, rfl, ?_⟩
      rintro ⟨file, hfile⟩
      have hfile' : (Request.start dev mem).dev.backend = .raw file := hfile
      rw [VirtioBlock.processRequest, if_neg (by decide), if_neg (by decide), if_pos rfl, VirtioBlock.doFlush, hfile']
      exact fileStatus_ne_none _
    · rw [if_neg hflush]
      exact ⟨_, _, .refl hlt rfl rfl rfl, rfl, fun _ => Option.some_ne_none _⟩

theorem transfers_counted (hraw : dev.backend = .raw file) : ∀ t ∈ transfers env dev vq p, t.counted ≤ t.moved := by
  unfold transfers
  split
  · exact reads_counted ⟨file, hraw⟩
  · split
    · rw [List.forall_mem_map]
      exact fun _ _ => Nat.le_refl _
    · exact fun _ ht => absurd ht List.not_mem_nil

theorem spans_sum (ts : List Transfer) : ((ts.map Transfer.span).map Span.size).sum = (ts.map Transfer.moved).sum := by
  rw [List.map_map]
  rfl

theorem Orderly.directed (h : Orderly env dev vq chain p) (hparsed : parsed vq mem chain = some p) :
    Directed vq chain mem (processDescriptorChain env dev mem chain vq).mem
      (processDescriptorChain env dev mem chain vq).filled
      (processDescriptorChain env dev mem chain vq).totalWritten := by
  obtain ⟨r, outcome, htracked, hprocess, -⟩ := @process_tracked B _ env dev vq mem chain p hparsed
  have hinside := h.inside
  have hlength := h.length
  have hcounted : ((transfers env dev vq p).map Transfer.counted).sum =
      ((transfers env dev vq p).map Transfer.moved).sum :=
    congrArg List.sum (List.map_congr_left fun t ht => (h.whole t ht).symm)
  rw [spansOf, List.forall_mem_append] at hinside
  rw [spansOf, List.map_append, List.sum_append, spans_sum] at hlength
  rw [hprocess]
  cases outcome with
  | none =>
    refine htracked.directed_iff.mpr ⟨hinside.1, ?_⟩
    rw [spans_sum, hcounted, Nat.mod_eq_of_lt (by omega)]
  | some status =>
    have hfinished := htracked.trans (finish_tracked htracked.total_lt p.statusDesc status)
    refine hfinished.directed_iff.mpr ⟨List.forall_mem_append.mpr hinside, ?_⟩
    rw [List.map_append, List.sum_append, spans_sum, hcounted, Nat.mod_eq_of_lt hlength]

theorem eq_of_sum_le {ts : List Transfer} (h : ∀ t ∈ ts, t.counted ≤ t.moved)
    (hsum : (ts.map Transfer.moved).sum ≤ (ts.map Transfer.counted).sum) : ∀ t ∈ ts, t.moved = t.counted := by
  intro t ht
  by_contra hne
  have hlt := List.sum_lt_sum Transfer.counted Transfer.moved h ⟨t, ht, Nat.lt_of_le_of_ne (h t ht) (Ne.symm hne)⟩
  omega

theorem orderly_of_directed (hraw : dev.backend = .raw file) (hparsed : parsed vq mem chain = some p)
    (h : Directed vq chain mem (processDescriptorChain env dev mem chain vq).mem
      (processDescriptorChain env dev mem chain vq).filled
      (processDescriptorChain env dev mem chain vq).totalWritten) : Orderly env dev vq chain p := by
  obtain ⟨r, outcome, htracked, hprocess, houtcome⟩ := @process_tracked B _ env dev vq mem chain p hparsed
  rw [hprocess] at h
  obtain ⟨status, rfl⟩ := Option.ne_none_iff_exists'.mp (houtcome ⟨file, hraw⟩)
  have hfinished := htracked.trans (finish_tracked htracked.total_lt p.statusDesc status)
  obtain ⟨hinside, hreported⟩ := hfinished.directed_iff.mp h
  have hcounted := @transfers_counted B _ env dev vq p file hraw
  have hle := List.sum_le_sum hcounted
  rw [List.map_append, List.sum_append, spans_sum] at hreported
  -- the bytes put by a read that fails would be missing from what is reported
  have hmod := Nat.mod_le (((transfers env dev vq p).map Transfer.counted).sum +
    ((statusSpans vq p.statusDesc).map Span.size).sum) (2 ^ 32)
  have hlt := Nat.mod_lt (((transfers env dev vq p).map Transfer.counted).sum +
    ((statusSpans vq p.statusDesc).map Span.size).sum) (Nat.two_pow_pos 32)
  refine ⟨hinside, eq_of_sum_le hcounted (by omega), ?_⟩
  rw [spansOf, List.map_append, List.sum_append, spans_sum]
  omega

theorem process_unparsed (h : parsed vq mem chain = none) :
    processDescriptorChain env dev mem chain vq = Request.start dev mem := by
  obtain ⟨index, descriptors⟩ := chain
  rcases descriptors with _ | ⟨headerDesc, _ | ⟨desc, descs⟩⟩
  · rfl
  · rfl
  · unfold processDescriptorChain
    dsimp only [parsed] at h ⊢
    by_cases hlen : headerDesc.len < 16
    · rw [if_pos hlen]
    · rw [if_neg hlen] at h ⊢
      rw [Option.map_eq_none_iff.mp h]

theorem directed_of_orderly (h : ∀ p, parsed vq mem chain = some p → Orderly env dev vq chain p) :
    Directed vq chain mem (processDescriptorChain env dev mem chain vq).mem
      (processDescriptorChain env dev mem chain vq).filled
      (processDescriptorChain env dev mem chain vq).totalWritten := by
  cases hparsed : parsed vq mem chain with
  | none =>
    rw [process_unparsed hparsed]
    exact ⟨rfl, fun _ hw => absurd hw List.not_mem_nil, rfl⟩
  | some p => exact (h p hparsed).directed hparsed

end Requests

end Block

namespace VirtioFs

def portions : Nat → List (Descriptor × Nat) → List Span
  | _, [] => []
  | left, (desc, offset) :: targets => ⟨offset, min desc.len left⟩ :: portions (left - desc.len) targets

def answer (host : Host) (fs : VirtioFs) (mem : ByteStore) (chain : DescriptorChain) (vq : Virtqueue) : Bytes :=
  if gatherRequest vq mem chain.descriptors = [] then []
  else (handleFuseRequest host (gatherRequest vq mem chain.descriptors) fs).1.getD []

def writables (descs : List Descriptor) : List Descriptor := descs.filter fun desc => desc.flags &&& vringDescFWrite ≠ 0

def answerSpans (host : Host) (fs : VirtioFs) (mem : ByteStore) (chain : DescriptorChain) (vq : Virtqueue) : List Span :=
  portions (answer host fs mem chain vq).length (mapped vq (writables chain.descriptors))

section Answers

variable {vq : Virtqueue} {chain : DescriptorChain} {response : Bytes} {descs : List Descriptor} {s : Spread}
  {targets : List (Descriptor × Nat)} {host : Host} {fs : VirtioFs} {mem : ByteStore}

theorem portions_zero : ∀ span ∈ portions 0 targets, span.size = 0 := by
  induction targets with
  | nil => exact fun _ h => absurd h List.not_mem_nil
  | cons target targets ih =>
    rw [portions, Nat.zero_sub, List.forall_mem_cons]
    exact ⟨Nat.min_zero _, ih⟩

theorem portions_zero_sum : ((portions 0 targets).map Span.size).sum = 0 := by
  rw [List.sum_eq_zero_iff_forall_eq_nat, List.forall_mem_map]
  exact portions_zero

theorem spreadResponse_placed : (∃ filled, (spreadResponse vq response descs s).filled = s.filled ++ filled ∧
      Placed vq chain s.mem (spreadResponse vq response descs s).mem filled
        (portions (response.length - s.written) (mapped vq (writables descs)))) ∧
    (spreadResponse vq response descs s).written =
      s.written + ((portions (response.length - s.written) (mapped vq (writables descs))).map Span.size).sum := by
  induction descs generalizing s with
  | nil => exact ⟨⟨[], (List.append_nil _).symm, .of_empty fun _ h => absurd h List.not_mem_nil⟩, rfl⟩
  | cons desc descs ih =>
    rw [spreadResponse]
    by_cases hflag : desc.flags &&& vringDescFWrite = 0
    · have hskip : writables (desc :: descs) = writables descs := List.filter_cons_of_neg (by simp [hflag])
      rw [if_pos hflag, hskip]
      exact ih
    · have htake : writables (desc :: descs) = desc :: writables descs := List.filter_cons_of_pos (by simp [hflag])
      rw [if_neg hflag, htake]
      by_cases hdone : response.length ≤ s.written
      · rw [if_pos hdone, Nat.sub_eq_zero_of_le hdone, portions_zero_sum]
        exact ⟨⟨[], (List.append_nil _).symm, .of_empty portions_zero⟩, rfl⟩
      · rw [if_neg hdone, Virtqueue.writeDescriptorData]
        cases hrange : vq.guestRange desc.addr desc.len with
        | none =>
          rw [mapped_cons_none hrange]
          exact ih
        | some offset =>
          obtain ⟨⟨filled, hfilled, hplaced⟩, hwritten⟩ := @ih (s.copy response desc offset)
          have hlength : ((response.drop s.written).take desc.len).length = min desc.len (response.length - s.written) := by
            rw [List.length_take, List.length_drop]
          have hcopied : (s.copy response desc offset).written = s.written + min desc.len (response.length - s.written) :=
            congrArg (s.written + ·) hlength
          have hleft : response.length - (s.copy response desc offset).written =
              response.length - s.written - desc.len := by
            omega
          rw [hleft] at hplaced hwritten
          rw [mapped_cons_some hrange, portions, List.map_cons, List.sum_cons]
          refine ⟨⟨(desc, ⟨offset, (response.drop s.written).take desc.len⟩) :: filled, ?_, ?_⟩, ?_⟩
          · dsimp only
            rw [hfilled]
            exact List.append_assoc _ _ _
          · have hone := @Placed.single vq chain s.mem desc offset ((response.drop s.written).take desc.len)
            rw [hlength] at hone
            exact hone.append hplaced
          · dsimp only
            rw [hwritten, hcopied, Nat.add_assoc]

theorem spreadResponse_nil : spreadResponse vq [] descs ⟨mem, [], 0⟩ = ⟨mem, [], 0⟩ := by
  induction descs with
  | nil => rfl
  | cons desc descs ih =>
    rw [spreadResponse]
    split
    · exact ih
    · exact if_pos (Nat.le_refl 0)

theorem process_eq : ∃ fs', processDescriptorChain host fs mem chain vq =
    (fs', spreadResponse vq (answer host fs mem chain vq) chain.descriptors ⟨mem, [], 0⟩,
      (spreadResponse vq (answer host fs mem chain vq) chain.descriptors ⟨mem, [], 0⟩).written % 2 ^ 32) := by
  unfold processDescriptorChain answer
  dsimp only
  by_cases hrequest : gatherRequest vq mem chain.descriptors = []
  · rw [if_pos hrequest, if_pos hrequest, spreadResponse_nil]
    exact ⟨fs, rfl⟩
  · rw [if_neg hrequest, if_neg hrequest]
    by_cases hresponse : (handleFuseRequest host (gatherRequest vq mem chain.descriptors) fs).1.getD [] = []
    · rw [if_pos hresponse, hresponse, spreadResponse_nil]
      exact ⟨_, rfl⟩
    · rw [if_neg hresponse]
      exact ⟨_, rfl⟩

theorem directed_iff : Directed vq chain mem (processDescriptorChain host fs mem chain vq).2.1.mem
      (processDescriptorChain host fs mem chain vq).2.1.filled (processDescriptorChain host fs mem chain vq).2.2 ↔
    (∀ span ∈ answerSpans host fs mem chain vq, Inside vq chain span) ∧
      ((answerSpans host fs mem chain vq).map Span.size).sum < 2 ^ 32 := by
  obtain ⟨⟨filled, hfilled, hplaced⟩, hwritten⟩ :=
    @spreadResponse_placed vq chain (answer host fs mem chain vq) chain.descriptors ⟨mem, [], 0⟩
  obtain ⟨fs', hprocess⟩ := @process_eq vq chain host fs mem
  rw [hprocess]
  dsimp only at hfilled hplaced hwritten ⊢
  rw [List.nil_append] at hfilled
  rw [Nat.sub_zero] at hplaced
  rw [Nat.zero_add, Nat.sub_zero] at hwritten
  rw [hfilled, hwritten]
  refine hplaced.directed_iff.trans (and_congr_right fun _ => ⟨fun h => ?_, Nat.mod_eq_of_lt⟩)
  have hlt := Nat.mod_lt ((answerSpans host fs mem chain vq).map Span.size).sum (Nat.two_pow_pos 32)
  rwa [show ((answerSpans host fs mem chain vq).map Span.size).sum % 2 ^ 32 = _ from h] at hlt

end Answers

end VirtioFs

section Devices

/-- A request to the block device, or to the fs device, that is in order modifies writable descriptors only, and reports
what it has written. No other does, on a raw disk. -/
theorem writes_directed_iff {B : Type} [Storage.Backing B] (vq : Virtqueue) (mem : ByteStore) (chain : DescriptorChain) :
    (∀ (env : Block.Env B) (dev : Block.VirtioBlock B),
      ((∀ p, Block.parsed vq mem chain = some p → Block.Orderly env dev vq chain p) →
        Directed vq chain mem (Block.processDescriptorChain env dev mem chain vq).mem
          (Block.processDescriptorChain env dev mem chain vq).filled
          (Block.processDescriptorChain env dev mem chain vq).totalWritten) ∧
      ∀ file, dev.backend = .raw file →
        (Directed vq chain mem (Block.processDescriptorChain env dev mem chain vq).mem
          (Block.processDescriptorChain env dev mem chain vq).filled
          (Block.processDescriptorChain env dev mem chain vq).totalWritten ↔
            ∀ p, Block.parsed vq mem chain = some p → Block.Orderly env dev vq chain p)) ∧
    ∀ (host : Host) (fs : VirtioFs),
      Directed vq chain mem (VirtioFs.processDescriptorChain host fs mem chain vq).2.1.mem
        (VirtioFs.processDescriptorChain host fs mem chain vq).2.1.filled
        (VirtioFs.processDescriptorChain host fs mem chain vq).2.2 ↔
          (∀ span ∈ VirtioFs.answerSpans host fs mem chain vq, Inside vq chain span) ∧
            ((VirtioFs.answerSpans host fs mem chain vq).map Span.size).sum < 2 ^ 32 := by
  refine ⟨fun env dev => ⟨Block.directed_of_orderly, fun file hraw => ⟨fun h p hparsed => ?_, ?_⟩⟩,
    fun host fs => VirtioFs.directed_iff⟩
  · exact Block.orderly_of_directed hraw hparsed h
  · exact Block.directed_of_orderly

open Block Block.ValidRequest

def readMem : ByteStore := fun a => if a = 0x4000 then 0xFF else 0

def readChain (flags : Nat) : DescriptorChain :=
  ⟨0, [⟨0x1000, 16, 1, 1⟩, ⟨0x2000, 512, 3, 2⟩, ⟨0x4000, 1, flags, 0⟩]⟩

def readParsed (flags : Nat) : Parsed := ⟨0, 0, [⟨0x2000, 512, 3, 2⟩], ⟨0x4000, 1, flags, 0⟩⟩

theorem readChain_parsed (flags : Nat) : parsed flatQueue readMem (readChain flags) = some (readParsed flags) := rfl

theorem readChain_transfers : transfers plainEnv (blankDisk 2) flatQueue (readParsed 2) =
    [⟨⟨0x2000, 512, 3, 2⟩, 0x2000, 512, true⟩] := by
  decide +kernel

theorem readChain_spans : spansOf plainEnv (blankDisk 2) flatQueue (readParsed 2) = [⟨0x2000, 512⟩, ⟨0x4000, 1⟩] := by
  rw [spansOf, readChain_transfers]
  rfl

theorem writes_directed_read :
    Directed flatQueue (readChain 2) readMem
      (processDescriptorChain plainEnv (blankDisk 2) readMem (readChain 2) flatQueue).mem
      (processDescriptorChain plainEnv (blankDisk 2) readMem (readChain 2) flatQueue).filled
      (processDescriptorChain plainEnv (blankDisk 2) readMem (readChain 2) flatQueue).totalWritten := by
  refine (((writes_directed_iff flatQueue readMem (readChain 2)).1 plainEnv (blankDisk 2)).2 _ rfl).mpr ?_
  intro p hparsed
  obtain rfl := Option.some.inj ((readChain_parsed 2).symm.trans hparsed)
  refine ⟨?_, ?_, ?_⟩
  · rw [readChain_spans, List.forall_mem_cons, List.forall_mem_singleton]
    constructor
    · exact @inside_of_inGuest flatQueue (readChain 2) ⟨0x2000, 512, 3, 2⟩ 0x2000 flatQueue_sized (by decide) (by decide)
        (flatQueue_inGuest (by decide)) rfl 512 (Nat.le_refl _)
    · exact @inside_of_inGuest flatQueue (readChain 2) ⟨0x4000, 1, 2, 0⟩ 0x4000 flatQueue_sized (by decide) (by decide)
        (flatQueue_inGuest (by decide)) rfl 1 (Nat.le_refl _)
  · rw [readChain_transfers, List.forall_mem_singleton]
    rfl
  · rw [readChain_spans]
    decide

theorem writes_directed_fails :
    ¬ Directed flatQueue (readChain 0) readMem
      (processDescriptorChain plainEnv (blankDisk 2) readMem (readChain 0) flatQueue).mem
      (processDescriptorChain plainEnv (blankDisk 2) readMem (readChain 0) flatQueue).filled
      (processDescriptorChain plainEnv (blankDisk 2) readMem (readChain 0) flatQueue).totalWritten := by
  intro hdirected
  have hreadonly : ¬ Writable flatQueue (readChain 0) 0x4000 := by
    rintro ⟨desc, hmem, hflag, i, hi, hbacking⟩
    obtain ⟨-, -, -, hcases⟩ := backing_eq_some.mp hbacking
    have hstart : flatQueue.holeStart = 0 := rfl
    simp only [readChain, List.mem_cons, List.not_mem_nil, or_false] at hmem
    rcases hmem with rfl | rfl | rfl
    · exact hflag (by decide)
    · dsimp only at hi hcases
      omega
    · exact hflag (by decide)
  exact absurd (hdirected.frame hreadonly) (by decide +kernel)

end Devices

end CloneVmm.Virtio
