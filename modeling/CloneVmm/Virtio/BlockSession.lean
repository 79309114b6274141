import CloneVmm.Virtio.BlockDevice
import CloneVmm.Virtio.Lossless

namespace CloneVmm.Virtio.Block

open CloneVmm.Lib

structure Completed where
  requestType : Nat
  sector : Nat
  sent : List UInt8
  received : List UInt8
  status : Nat

inductive DiskStep (readonly : Bool) : ByteStore → Completed → ByteStore → Prop
  | written (content : ByteStore) (c : Completed) :
      c.requestType = virtioBlkTOut → c.status = virtioBlkSOk → (readonly = true → c.sent = []) →
      DiskStep readonly content c (writeBytes content (c.sector * sectorSize) c.sent)
  | cut (content : ByteStore) (c : Completed) (k : Nat) :
      c.requestType = virtioBlkTOut → c.status = virtioBlkSIoerr → (readonly = true → k = 0) →
      DiskStep readonly content c (writeBytes content (c.sector * sectorSize) (c.sent.take k))
  | read (content : ByteStore) (c : Completed) :
      c.requestType = virtioBlkTIn → c.status = virtioBlkSOk →
      c.received = readBytes content (c.sector * sectorSize) c.received.length → DiskStep readonly content c content
  | unread (content : ByteStore) (c : Completed) :
      c.requestType = virtioBlkTIn → c.status = virtioBlkSIoerr → DiskStep readonly content c content
  | flushed (content : ByteStore) (c : Completed) :
      c.requestType = virtioBlkTFlush → c.status = virtioBlkSOk ∨ c.status = virtioBlkSIoerr →
      DiskStep readonly content c content
  | named (content : ByteStore) (c : Completed) :
      c.requestType = virtioBlkTGetId → c.status = virtioBlkSOk → DiskStep readonly content c content
  | unsupported (content : ByteStore) (c : Completed) :
      c.requestType ∉ [virtioBlkTIn, virtioBlkTOut, virtioBlkTFlush, virtioBlkTGetId] →
      c.status = virtioBlkSUnsupp → DiskStep readonly content c content

theorem DiskStep.readonly {content content' : ByteStore} {c : Completed} (h : DiskStep true content c content') :
    content' = content := by
  cases h with
  | written _ _ hempty => rw [hempty rfl, writeBytes_nil]
  | cut k _ _ hnone => rw [hnone rfl, List.take_zero, writeBytes_nil]
  | read | unread | flushed | named | unsupported => rfl

namespace ValidRequest

section Answer

variable {B : Type} [Storage.Backing B] {env : Env B} {base content : ByteStore} {dev : VirtioBlock B} {vq : Virtqueue}
  {mem mem' : ByteStore} {chain : DescriptorChain} {r : Request B}

def completed (q : ValidRequest vq mem chain) (mem' : ByteStore) : Completed where
  requestType := q.requestType
  sector := q.sector
  sent := (buffers vq mem (taken virtioBlkTOut q.data)).flatten
  received := (buffers vq mem' (taken virtioBlkTIn q.data)).flatten
  status := leNat (guestBytes vq mem' q.statusDesc.addr 1)

def OnSectors (q : ValidRequest vq mem chain) : Prop := Splits q.sector (lengths (taken q.requestType q.data))

structure Finished (q : ValidRequest vq mem chain) (r : Request B) (s : Nat) (r' : Request B) : Prop where
  dev : r'.dev = r.dev
  status : r'.status = some s
  byte : (q.completed r'.mem).status = s

omit [Storage.Backing B] in
theorem finish_finished (q : ValidRequest vq mem chain) (hsized : Sized vq) {status : Nat} (hlt : status < 256) :
    Finished q r status (r.finish vq q.statusDesc (some status)) := by
  have hlen := q.statusLen
  obtain ⟨offset, hrange, hbacking⟩ := q.status.range hsized hlen
  refine ⟨finish_dev, ?_, ?_⟩
  · unfold Request.finish Virtqueue.writeDescriptorData
    dsimp only
    rw [hrange]
    dsimp only
    rw [if_neg (by omega)]
  · have hmem : (r.finish vq q.statusDesc (some status)).mem = writeBytes r.mem offset [UInt8.ofNat status] := by
      unfold Request.finish Virtqueue.writeDescriptorData
      dsimp only
      rw [hrange]
      dsimp only
      rw [if_neg (by omega)]
      rfl
    have hbyte : guestBytes vq (r.finish vq q.statusDesc (some status)).mem q.statusDesc.addr 1 =
        readBytes (r.finish vq q.statusDesc (some status)).mem offset 1 :=
      guestBytes_eq fun i hi => hbacking i (Nat.lt_of_lt_of_le hi hlen)
    have hback := readBytes_writeBytes r.mem offset [UInt8.ofNat status]
    rw [List.length_singleton] at hback
    dsimp only [completed]
    rw [hbyte, hmem, hback, leNat, leNat, UInt8.toNat_ofNat', Nat.mod_eq_of_lt hlt]
    rfl

theorem process_moved (q : ValidRequest vq mem chain) (hsized : Sized vq)
    (htype : q.requestType = virtioBlkTIn ∨ q.requestType = virtioBlkTOut ∨ q.requestType = virtioBlkTGetId) :
    processDescriptorChain env dev mem chain vq =
      (Request.moveData env vq q.requestType q.sector q.data (Request.start dev mem)).2.finish vq q.statusDesc
        (Request.moveData env vq q.requestType q.sector q.data (Request.start dev mem)).1 := by
  rw [q.process_eq hsized, Request.dispatch, if_pos htype]

structure Answered (env : Env B) (base content : ByteStore) (dev : VirtioBlock B) (q : ValidRequest vq mem chain)
    (r : Request B) (content' : ByteStore) : Prop where
  step : DiskStep dev.readonly content (q.completed r.mem) content'
  shows : r.dev.backend.Shows env base content'
  readonly : r.dev.readonly = dev.readonly

theorem ok_lt : virtioBlkSOk < 256 := by decide

theorem ioerr_lt : virtioBlkSIoerr < 256 := by decide

theorem answered_out (q : ValidRequest vq mem chain) (hsized : Sized vq) (hshows : dev.backend.Shows env base content)
    (hsectors : q.OnSectors) (htype : q.requestType = virtioBlkTOut) :
    ∃ content', Answered env base content dev q (processDescriptorChain env dev mem chain vq) content' := by
  have hprocess := @process_moved B _ env dev vq mem chain q hsized (.inr (.inl htype))
  have hsplits : Splits q.sector (lengths (taken virtioBlkTOut q.data)) := htype ▸ hsectors
  obtain ⟨hserved, k, hcut⟩ := @moveData_out_cut B _ env base content (Request.start dev mem) vq q.sector q.data hsized
    q.guest q.typed q.sector_lt hsplits hshows
  have hlocked := @moveData_out_readonly B _ env (Request.start dev mem) vq q.sector q.data
  have hkept := @moveData_readonly B _ env (Request.start dev mem) vq virtioBlkTOut q.sector q.data
  rw [htype] at hprocess
  rcases hserved with hok | herr
  · rw [hok] at hprocess
    have hfinished := @finish_finished B vq mem chain
      (Request.moveData env vq virtioBlkTOut q.sector q.data (Request.start dev mem)).2 q hsized _ ok_lt
    have hwritten := @written_of_splits B _ env base content dev vq mem chain q hsized htype hshows
      (by rw [hprocess]; exact hfinished.status) hsplits
    rw [hprocess] at hwritten ⊢
    refine ⟨_, .written content _ htype hfinished.byte fun hreadonly => ?_, hwritten.disk, ?_⟩
    · have hnone := (hlocked hreadonly).2 hok
      apply List.eq_nil_of_length_eq_zero
      dsimp only [completed]
      rw [List.length_flatten, buffers_lengths]
      rw [List.sum_eq_zero_iff_forall_eq_nat, lengths, List.forall_mem_map]
      intro desc hdesc
      by_contra hne
      obtain ⟨offset, hrange, -⟩ :=
        (q.guest desc (List.mem_of_mem_filter hdesc)).range hsized (Nat.pos_of_ne_zero hne)
      have hmapped : (desc, offset) ∈ mapped vq (taken virtioBlkTOut q.data) :=
        List.mem_filterMap.mpr ⟨desc, hdesc, by rw [hrange]; rfl⟩
      rw [hnone] at hmapped
      cases hmapped
    · rw [hfinished.dev, hkept]
      rfl
  · rw [herr] at hprocess
    have hfinished := @finish_finished B vq mem chain
      (Request.moveData env vq virtioBlkTOut q.sector q.data (Request.start dev mem)).2 q hsized _ ioerr_lt
    rw [hprocess]
    by_cases hreadonly : dev.readonly = true
    · refine ⟨_, .cut content _ 0 htype hfinished.byte fun _ => rfl, ?_, ?_⟩
      · rw [List.take_zero, writeBytes_nil, hfinished.dev, (hlocked hreadonly).1]
        exact hshows
      · rw [hfinished.dev, hkept]
        rfl
    · refine ⟨_, .cut content _ k htype hfinished.byte fun h => absurd h hreadonly, ?_, ?_⟩
      · rw [hfinished.dev]
        exact hcut
      · rw [hfinished.dev, hkept]
        rfl

theorem answered_in (q : ValidRequest vq mem chain) (hsized : Sized vq) (hshows : dev.backend.Shows env base content)
    (hsectors : q.OnSectors) (htype : q.requestType = virtioBlkTIn) :
    Answered env base content dev q (processDescriptorChain env dev mem chain vq) content := by
  have hprocess := @process_moved B _ env dev vq mem chain q hsized (.inl htype)
  have hsplits : Splits q.sector (lengths (taken virtioBlkTIn q.data)) := htype ▸ hsectors
  obtain ⟨hserved, hdisk⟩ := @moveData_in_shows B _ env base content (Request.start dev mem) vq q.sector q.data hshows
  have hkept := @moveData_readonly B _ env (Request.start dev mem) vq virtioBlkTIn q.sector q.data
  rw [htype] at hprocess
  rcases hserved with hok | herr
  · rw [hok] at hprocess
    have hfinished := @finish_finished B vq mem chain
      (Request.moveData env vq virtioBlkTIn q.sector q.data (Request.start dev mem)).2 q hsized _ ok_lt
    have hfilled := @filled_of_splits B _ env base content dev vq mem chain q hsized htype hshows
      (by rw [hprocess]; exact hfinished.status) hsplits
    rw [hprocess] at hfilled ⊢
    refine ⟨.read content _ htype hfinished.byte ?_, hfilled.disk, ?_⟩
    · dsimp only [completed]
      rw [List.length_flatten, buffers_lengths]
      exact hfilled.bytes
    · rw [hfinished.dev, hkept]
      rfl
  · rw [herr] at hprocess
    have hfinished := @finish_finished B vq mem chain
      (Request.moveData env vq virtioBlkTIn q.sector q.data (Request.start dev mem)).2 q hsized _ ioerr_lt
    rw [hprocess]
    refine ⟨.unread content _ htype hfinished.byte, ?_, ?_⟩
    · rw [hfinished.dev]
      exact hdisk
    · rw [hfinished.dev, hkept]
      rfl

theorem answered_getId (q : ValidRequest vq mem chain) (hsized : Sized vq)
    (hshows : dev.backend.Shows env base content) (htype : q.requestType = virtioBlkTGetId) :
    Answered env base content dev q (processDescriptorChain env dev mem chain vq) content := by
  have hprocess := @process_moved B _ env dev vq mem chain q hsized (.inr (.inr htype))
  obtain ⟨hok, hdev⟩ := @moveData_getId B _ env (Request.start dev mem) vq q.sector q.data
  rw [htype, hok] at hprocess
  have hfinished := @finish_finished B vq mem chain
    (Request.moveData env vq virtioBlkTGetId q.sector q.data (Request.start dev mem)).2 q hsized _ ok_lt
  have hsame : (processDescriptorChain env dev mem chain vq).dev = dev := by rw [hprocess, hfinished.dev, hdev]; rfl
  refine ⟨?_, ?_, ?_⟩
  · rw [hprocess]
    exact .named content _ htype hfinished.byte
  · rw [hsame]
    exact hshows
  · rw [hsame]

theorem answered_flush (q : ValidRequest vq mem chain) (hsized : Sized vq)
    (hshows : dev.backend.Shows env base content) (htype : q.requestType = virtioBlkTFlush) :
    Answered env base content dev q (processDescriptorChain env dev mem chain vq) content := by
  have hprocess : processDescriptorChain env dev mem chain vq =
      { Request.start dev mem with dev := (dev.doFlush env).2 }.finish vq q.statusDesc (dev.doFlush env).1 := by
    rw [q.process_eq hsized, Request.dispatch, htype, if_neg (by decide), if_pos rfl]
    rfl
  obtain ⟨hserved, hdisk⟩ := @doFlush_shows B _ env base content dev hshows
  have hkept : (dev.doFlush env).2.readonly = dev.readonly := @processRequest_readonly B _ env dev virtioBlkTFlush 0 []
  obtain ⟨status, hstatus, hlt, hcases⟩ : ∃ status, (dev.doFlush env).1 = some status ∧ status < 256 ∧
      (status = virtioBlkSOk ∨ status = virtioBlkSIoerr) := by
    rcases hserved with hok | herr
    · exact ⟨_, hok, ok_lt, .inl rfl⟩
    · exact ⟨_, herr, ioerr_lt, .inr rfl⟩
  rw [hstatus] at hprocess
  have hfinished := @finish_finished B vq mem chain { Request.start dev mem with dev := (dev.doFlush env).2 } q hsized _ hlt
  rw [hprocess]
  refine ⟨.flushed content _ htype ?_, ?_, ?_⟩
  · rw [hfinished.byte]
    exact hcases
  · rw [hfinished.dev]
    exact hdisk
  · rw [hfinished.dev]
    exact hkept

theorem answered_unsupported (q : ValidRequest vq mem chain) (hsized : Sized vq)
    (hshows : dev.backend.Shows env base content)
    (htype : q.requestType ∉ [virtioBlkTIn, virtioBlkTOut, virtioBlkTFlush, virtioBlkTGetId]) :
    Answered env base content dev q (processDescriptorChain env dev mem chain vq) content := by
  have hother := htype
  simp only [List.mem_cons, List.not_mem_nil, or_false, not_or] at hother
  obtain ⟨hin, hout, hflush, hid⟩ := hother
  have hprocess : processDescriptorChain env dev mem chain vq =
      (Request.start dev mem).finish vq q.statusDesc (some virtioBlkSUnsupp) := by
    rw [q.process_eq hsized, Request.dispatch, if_neg (by simp [hin, hout, hid]), if_neg hflush]
  have hlt : virtioBlkSUnsupp < 256 := by decide
  have hfinished := @finish_finished B vq mem chain (Request.start dev mem) q hsized _ hlt
  rw [hprocess]
  refine ⟨.unsupported content _ htype hfinished.byte, ?_, ?_⟩
  · rw [hfinished.dev]
    exact hshows
  · rw [hfinished.dev]
    rfl

theorem answered (q : ValidRequest vq mem chain) (hsized : Sized vq) (hshows : dev.backend.Shows env base content)
    (hsectors : q.OnSectors) :
    ∃ content', Answered env base content dev q (processDescriptorChain env dev mem chain vq) content' := by
  by_cases hknown : q.requestType ∈ [virtioBlkTIn, virtioBlkTOut, virtioBlkTFlush, virtioBlkTGetId]
  · simp only [List.mem_cons, List.not_mem_nil, or_false] at hknown
    rcases hknown with hin | hout | hflush | hid
    · exact ⟨content, q.answered_in hsized hshows hsectors hin⟩
    · exact q.answered_out hsized hshows hsectors hout
    · exact ⟨content, q.answered_flush hsized hshows hflush⟩
    · exact ⟨content, q.answered_getId hsized hshows hid⟩
  · exact ⟨content, q.answered_unsupported hsized hshows hknown⟩

end Answer

section Memory

variable {B : Type} [Storage.Backing B] {env : Env B} {base content : ByteStore} {dev : VirtioBlock B} {vq : Virtqueue}
  {mem mem' mem'' : ByteStore} {chain : DescriptorChain}

theorem mem_mapped {desc : Descriptor} {descs : List Descriptor} {offset : Nat} (h : (desc, offset) ∈ mapped vq descs) :
    desc ∈ descs ∧ vq.guestRange desc.addr desc.len = some offset := by
  obtain ⟨desc', hdesc', hrange⟩ := List.mem_filterMap.mp h
  obtain ⟨offset', hoffset', heq⟩ := Option.map_eq_some_iff.mp hrange
  cases heq
  exact ⟨hdesc', hoffset'⟩

theorem reads_within {cur : Nat} {targets : List (Descriptor × Nat)} (hshows : dev.backend.Shows env base content) :
    ∀ t ∈ dev.reads env cur targets, (t.desc, t.offset) ∈ targets ∧ t.moved ≤ t.desc.len := by
  induction targets generalizing cur dev with
  | nil => exact fun _ ht => absurd ht List.not_mem_nil
  | cons target targets ih =>
    obtain ⟨desc, offset⟩ := target
    obtain ⟨-, hput, hdisk⟩ := @doRead_shows B _ env base content dev desc.len cur hshows
    rw [VirtioBlock.reads]
    by_cases hok : (dev.doRead env cur desc.len).1 = some virtioBlkSOk
    · rw [if_pos hok, List.forall_mem_cons]
      refine ⟨⟨List.mem_cons_self, hput⟩, fun t ht => ?_⟩
      obtain ⟨hmem, hmoved⟩ := ih hdisk t ht
      exact ⟨List.mem_cons_of_mem _ hmem, hmoved⟩
    · rw [if_neg hok, List.forall_mem_singleton]
      exact ⟨List.mem_cons_self, hput⟩

theorem inGuest (q : ValidRequest vq mem chain) : ∀ desc ∈ chain.descriptors, InGuest vq desc.addr desc.len := by
  rw [q.descriptors, List.forall_mem_cons, List.forall_mem_append, List.forall_mem_singleton]
  exact ⟨q.header, q.guest, q.status⟩

theorem data_mem (q : ValidRequest vq mem chain) {desc : Descriptor} (h : desc ∈ q.data) : desc ∈ chain.descriptors := by
  rw [q.descriptors]
  exact List.mem_cons_of_mem _ (List.mem_append_left _ h)

theorem status_mem (q : ValidRequest vq mem chain) : q.statusDesc ∈ chain.descriptors := by
  rw [q.descriptors]
  exact List.mem_cons_of_mem _ (List.mem_append_right _ (List.mem_singleton_self _))

theorem transfers_inside (q : ValidRequest vq mem chain) (hsized : Sized vq) (hshows : dev.backend.Shows env base content) :
    ∀ t ∈ transfers env dev vq ⟨q.requestType, q.sector, q.data, q.statusDesc⟩, Inside vq chain t.span := by
  have hinside : ∀ requestType, requestType ≠ virtioBlkTOut → ∀ desc offset moved,
      (desc, offset) ∈ mapped vq (taken requestType q.data) → moved ≤ desc.len → Inside vq chain ⟨offset, moved⟩ := by
    intro requestType hne desc offset moved hmapped hmoved
    obtain ⟨htaken, hrange⟩ := mem_mapped hmapped
    obtain ⟨hdata, htakes⟩ := List.mem_filter.mp htaken
    have hflag : desc.flags &&& vringDescFWrite ≠ 0 := by
      have h := of_decide_eq_true htakes
      rwa [Request.Takes, if_neg hne] at h
    exact inside_of_inGuest hsized (q.data_mem hdata) hflag (q.guest desc hdata) hrange hmoved
  unfold transfers
  split
  · intro t ht
    obtain ⟨hmapped, hmoved⟩ := reads_within hshows t ht
    exact hinside virtioBlkTIn (by decide) t.desc t.offset t.moved hmapped hmoved
  · split
    · rw [List.forall_mem_map]
      intro target htarget
      exact hinside virtioBlkTGetId (by decide) target.1 target.2 target.1.len htarget (Nat.le_refl _)
    · exact fun _ ht => absurd ht List.not_mem_nil

theorem process_kept (q : ValidRequest vq mem chain) (hsized : Sized vq) (hshows : dev.backend.Shows env base content)
    {host : Nat} (hhost : ¬ Writable vq chain host) :
    (processDescriptorChain env dev mem chain vq).mem host = mem host := by
  have hlen := q.statusLen
  obtain ⟨r, outcome, htracked, hprocess, -⟩ := @process_tracked B _ env dev vq mem chain _ (q.parsed_eq hsized)
  have hmoved := q.transfers_inside hsized hshows
  obtain ⟨offset, hrange, -⟩ := q.status.range hsized hlen
  have hstatus : ∀ s ∈ statusSpans vq q.statusDesc, Inside vq chain s := by
    rw [statusSpans, if_neg (by omega), hrange, Option.toList_some, List.map_singleton, List.forall_mem_singleton]
    exact inside_of_inGuest hsized q.status_mem q.statusWritable q.status hrange hlen
  have hkept : ∀ (r' : Request B) (spans : List Span) (counted : Nat),
      Tracked vq chain (Request.start dev mem) r' spans counted → (∀ s ∈ spans, Inside vq chain s) →
        r'.mem host = mem host := by
    intro r' spans counted h hspans
    obtain ⟨filled, -, hplaced⟩ := h.placed
    have hfilled := hplaced.inside.mpr hspans
    rw [hplaced.memory]
    apply applyAll_value _ mem (.inl rfl)
    exact fun w hw hcovers => absurd (hfilled w hw host hcovers) hhost
  rw [hprocess]
  cases outcome with
  | none => exact hkept _ _ _ htracked (List.forall_mem_map.mpr hmoved)
  | some status =>
    apply hkept _ _ _ (htracked.trans (finish_tracked htracked.total_lt q.statusDesc status))
    exact List.forall_mem_append.mpr ⟨List.forall_mem_map.mpr hmoved, hstatus⟩

theorem completed_congr (q : ValidRequest vq mem chain) (h : ∀ a, Writable vq chain a → mem'' a = mem' a) :
    q.completed mem'' = q.completed mem' := by
  have hbytes : ∀ desc ∈ chain.descriptors, desc.flags &&& vringDescFWrite ≠ 0 → ∀ n ≤ desc.len,
      guestBytes vq mem'' desc.addr n = guestBytes vq mem' desc.addr n := by
    intro desc hmem hflag n hn
    apply List.map_congr_left
    intro i hi
    have hi' : i < desc.len := (List.mem_range.mp hi).trans_le hn
    obtain ⟨host, hhost⟩ := q.inGuest desc hmem i hi'
    rw [hhost, Option.map_some, Option.map_some, h host ⟨desc, hmem, hflag, i, hi', hhost⟩]
  have hreceived : buffers vq mem'' (taken virtioBlkTIn q.data) = buffers vq mem' (taken virtioBlkTIn q.data) := by
    apply List.map_congr_left
    intro desc hdesc
    obtain ⟨hdata, htakes⟩ := List.mem_filter.mp hdesc
    exact hbytes desc (q.data_mem hdata) (of_decide_eq_true htakes) _ (Nat.le_refl _)
  unfold completed
  rw [hreceived, hbytes q.statusDesc q.status_mem q.statusWritable 1 q.statusLen]

end Memory

end ValidRequest

section Session

variable {B : Type} [Storage.Backing B] {env : Env B} {base content : ByteStore} {vq : Virtqueue} {rings : Rings vq}
  {s s' : RingState (BlockDevice B)} {avail used : Nat}

inductive SessionStep (env : Env B) (rings : Rings vq) :
    RingState (BlockDevice B) → Option Completed → RingState (BlockDevice B) → Prop
  | driver {s s' : RingState (BlockDevice B)} {a : RingAction} :
      a ≠ .iterate → RingStep (device env) 0 rings s a s' → SessionStep env rings s none s'
  | serve {s : RingState (BlockDevice B)} {chain : DescriptorChain} {next : Virtqueue}
      (q : ValidRequest next s.mem chain) :
      s.vq.popAvail s.mem = some (chain, next) → q.OnSectors →
      SessionStep env rings s (some (q.completed (s.iterate (device env) 0 chain next).mem))
        (s.iterate (device env) 0 chain next)

theorem not_holds_of_writable {n : Nat} {mem : ByteStore} {chain : DescriptorChain} (hsized : Sized vq)
    (q : ValidRequest { vq with lastAvailIdx := n } mem chain) (hapart : rings.BuffersApart chain.descriptors) {a : Nat}
    (h : Writable { vq with lastAvailIdx := n } chain a) : ¬ rings.Holds a := by
  obtain ⟨desc, hmem, hflag, i, hi, hback⟩ := h
  have hguest : InGuest vq desc.addr desc.len := q.inGuest desc hmem
  obtain ⟨offset, hrange, hbacking⟩ := hguest.range hsized (Nat.zero_lt_of_lt hi)
  obtain rfl : offset + i = a := Option.some.inj ((hbacking i hi).symm.trans hback)
  exact hapart desc hmem hflag offset hrange _ (Nat.le_add_right _ _) (Nat.add_lt_add_left hi _)

open Classical in
noncomputable def requestsOnly (env : Env B) : VirtioDevice (BlockDevice B) :=
  { device env with
    processDescriptorChain := fun dev mem queueIdx chain vq =>
      if (∃ base content, dev.block.backend.Shows env base content) ∧ Nonempty (ValidRequest vq mem chain) then
        (device env).processDescriptorChain dev mem queueIdx chain vq
      else (0, dev, mem) }

theorem requestsOnly_keepsRings (env : Env B) (rings : Rings vq) (hsized : Sized vq) : KeepsRings (requestsOnly env) 0 rings := by
  intro dev mem chain n hapart a ha
  by_cases hrequest : (∃ base content, dev.block.backend.Shows env base content) ∧
      Nonempty (ValidRequest { vq with lastAvailIdx := n } mem chain)
  · simp only [requestsOnly, if_pos hrequest]
    obtain ⟨⟨base, content, hshows⟩, ⟨q⟩⟩ := hrequest
    have hsized' : Sized { vq with lastAvailIdx := n } := ⟨hsized.1, hsized.2, hsized.3⟩
    exact q.process_kept hsized' hshows fun hwritable => not_holds_of_writable hsized q hapart hwritable ha
  · simp only [requestsOnly, if_neg hrequest]

theorem requestsOnly_iterate {chain : DescriptorChain} {next : Virtqueue} (q : ValidRequest next s.mem chain)
    (hshows : s.device.block.backend.Shows env base content) :
    s.iterate (requestsOnly env) 0 chain next = s.iterate (device env) 0 chain next := by
  have hrequest : (∃ base content, s.device.block.backend.Shows env base content) ∧
      Nonempty (ValidRequest next s.mem chain) := ⟨⟨base, content, hshows⟩, ⟨q⟩⟩
  simp only [RingState.iterate, requestsOnly, if_pos hrequest]

structure Serving (env : Env B) (base : ByteStore) (rings : Rings vq) (avail used : Nat) (readonly : Bool)
    (content : ByteStore) (s : RingState (BlockDevice B)) : Prop where
  ring : RingInv rings avail used s
  shows : s.device.block.backend.Shows env base content
  readonly : s.device.block.readonly = readonly

theorem Serving.serve {readonly : Bool} (h : Serving env base rings avail used readonly content s) (hvq : QueueOk vq)
    (hsized : Sized vq) {chain : DescriptorChain} {next : Virtqueue} (hpop : s.vq.popAvail s.mem = some (chain, next))
    (q : ValidRequest next s.mem chain) (hsectors : q.OnSectors) :
    ∃ content', DiskStep readonly content (q.completed (s.iterate (device env) 0 chain next).mem) content' ∧
      Serving env base rings avail used readonly content' (s.iterate (device env) 0 chain next) := by
  have hlt : s.popped.length < s.published.length := by
    by_contra hnot
    have hle := h.ring.popped_le
    rw [h.ring.pop_none (by omega)] at hpop
    cases hpop
  obtain ⟨descs, hapart, hpop'⟩ := h.ring.pop_some hvq hlt
  cases hpop'.symm.trans hpop
  have hsized' : Sized { vq with lastAvailIdx := (avail + (s.popped.length + 1)) % 2 ^ 16 } :=
    ⟨hsized.1, hsized.2, hsized.3⟩
  obtain ⟨content', hanswered⟩ := q.answered hsized' h.shows hsectors
  have hring := h.ring.iterate hvq (requestsOnly_keepsRings env rings hsized) hlt hapart
  rw [requestsOnly_iterate q h.shows] at hring
  refine ⟨content', ?_, hring, hanswered.shows, ?_⟩
  · -- the used ring is apart from the buffers, so that the answer is what the device has put there
    have hsame := @ValidRequest.completed_congr _ _
      (processDescriptorChain env s.device.block s.mem ⟨s.published[s.popped.length], descs⟩
        { vq with lastAvailIdx := (avail + (s.popped.length + 1)) % 2 ^ 16 }).mem
      (s.iterate (device env) 0 ⟨s.published[s.popped.length], descs⟩
        { vq with lastAvailIdx := (avail + (s.popped.length + 1)) % 2 ^ 16 }).mem _ q ?_
    · rw [hsame, ← h.readonly]
      exact hanswered.step
    · intro a hwritable
      have hnot := not_holds_of_writable hsized q hapart hwritable
      have hpush := @Rings.pushUsed_eq _ (rings.resume ((avail + (s.popped.length + 1)) % 2 ^ 16))
        (processDescriptorChain env s.device.block s.mem ⟨s.published[s.popped.length], descs⟩
          { vq with lastAvailIdx := (avail + (s.popped.length + 1)) % 2 ^ 16 }).mem hvq.ready hvq.pos
        s.published[s.popped.length]
        (processDescriptorChain env s.device.block s.mem ⟨s.published[s.popped.length], descs⟩
          { vq with lastAvailIdx := (avail + (s.popped.length + 1)) % 2 ^ 16 }).totalWritten
      have haside : Apart a 1 rings.used (4 + 8 * vq.size) := by
        unfold Rings.Holds at hnot
        unfold Apart
        omega
      change (Virtqueue.pushUsed _ _ _ _).1 a = _
      rw [hpush]
      exact rings.pushed_agree hvq.pos haside _ _ a (Nat.le_refl a) (Nat.lt_succ_self a)
  · exact hanswered.readonly.trans h.readonly

theorem Serving.step {readonly : Bool} (h : Serving env base rings avail used readonly content s) (hvq : QueueOk vq)
    (hsized : Sized vq) {answer : Option Completed} (hstep : SessionStep env rings s answer s') :
    ∃ content', Steps (DiskStep readonly) content answer.toList content' ∧
      Serving env base rings avail used readonly content' s' ∧ s'.popped.length = s.popped.length + answer.toList.length := by
  cases hstep with
  | driver hdriver hring =>
    refine ⟨content, .nil content, ?_, ?_⟩
    · cases hring with
      | prepare havail hused hvalid => exact ⟨h.ring.frame hvq.pos havail hused hvalid, h.shows, h.readonly⟩
      | publish hroom hhead hchain => exact ⟨h.ring.publish hvq hroom hhead hchain, h.shows, h.readonly⟩
      | iterate hpop => exact absurd rfl hdriver
    · cases hring with
      | prepare havail hused hvalid => rfl
      | publish hroom hhead hchain => rfl
      | iterate hpop => exact absurd rfl hdriver
  | serve q hpop hsectors =>
    obtain ⟨content', hdisk, hserving⟩ := h.serve hvq hsized hpop q hsectors
    refine ⟨content', .cons hdisk (.nil content'), hserving, ?_⟩
    simp only [RingState.iterate, List.length_append, List.length_singleton, Option.toList_some]

theorem Serving.run {readonly : Bool} (h : Serving env base rings avail used readonly content s) (hvq : QueueOk vq)
    (hsized : Sized vq) {run : List (Option Completed)} (hrun : Steps (SessionStep env rings) s run s') :
    ∃ content', Steps (DiskStep readonly) content run.reduceOption content' ∧
      Serving env base rings avail used readonly content' s' ∧
      s'.popped.length = s.popped.length + run.reduceOption.length := by
  induction hrun generalizing content with
  | nil s => exact ⟨content, .nil content, h, rfl⟩
  | @cons s t u answer answers hstep _ ih =>
    obtain ⟨content', hdisk, hserving, hpopped⟩ := h.step hvq hsized hstep
    obtain ⟨content'', hdisks, hserving', hpopped'⟩ := ih hserving
    have hanswers : (answer :: answers).reduceOption = answer.toList ++ answers.reduceOption := by
      cases answer with
      | none => rfl
      | some c => rfl
    rw [hanswers, List.length_append]
    exact ⟨content'', hdisk.append hdisks, hserving', by omega⟩

end Session

theorem session_refines_disk {B : Type} [Storage.Backing B] (env : Env B) (base content : ByteStore) {vq : Virtqueue}
    (rings : Rings vq) (hvq : QueueOk vq) (hsized : Sized vq) {s₀ s : RingState (BlockDevice B)}
    {run : List (Option Completed)} (h₀ : RingStart rings s₀)
    (hshows : s₀.device.block.backend.Shows env base content) (hrun : Steps (SessionStep env rings) s₀ run s) :
    ∃ content', Steps (DiskStep s₀.device.block.readonly) content run.reduceOption content' ∧
      s.device.block.backend.Shows env base content' ∧
      (s₀.device.block.readonly = true → content' = content) ∧
      s.popped.length = run.reduceOption.length ∧ Lossless rings (word16 s₀.mem (rings.used + 2)) s := by
  have hstart : Serving env base rings vq.lastAvailIdx (word16 s₀.mem (rings.used + 2)) s₀.device.block.readonly content
      s₀ := ⟨.of_start h₀ hvq, hshows, rfl⟩
  obtain ⟨content', hdisk, hserving, hpopped⟩ := hstart.run hvq hsized hrun
  refine ⟨content', hdisk, hserving.shows, ?_, ?_, hserving.ring.lossless hvq⟩
  · intro hreadonly
    rw [hreadonly] at hdisk
    apply Steps.invariant (P := fun c => c = content) _ hdisk rfl
    intro c answer c' hstep hsame
    rw [hstep.readonly, hsame]
  · rw [hpopped, h₀.popped, List.length_nil, Nat.zero_add]

section OneWrite

def sessionMem : ByteStore := fun a =>
  ([(1, 0x30), (8, 16), (12, 1), (14, 1), (17, 0x40), (25, 2), (28, 1), (30, 2), (33, 0x50), (40, 1), (44, 2),
    (0x1002, 255), (0x1003, 255), (0x2002, 255), (0x2003, 255), (0x3000, 1), (0x4000, 7)].lookup a).getD 0

theorem sessionSize_le : 4 ≤ 128 := by decide

def sessionRings : Rings (wrapQueue 4) := wrapRings 4 sessionSize_le

def sessionStart : RingState (BlockDevice Empty) where
  device := ⟨blankDisk 2, 512, (0, 0), true⟩
  vq := wrapQueue 4
  mem := sessionMem
  published := []
  popped := []

def sessionPublished : RingState (BlockDevice Empty) :=
  { sessionStart with mem := sessionRings.publish sessionMem 0, published := [0] }

def sessionChain : DescriptorChain := ⟨0, [⟨0x3000, 16, 1, 1⟩, ⟨0x4000, 512, 1, 2⟩, ⟨0x5000, 1, 2, 0⟩]⟩

def sessionNext : Virtqueue := { wrapQueue 4 with lastAvailIdx := 0 }

theorem sessionStart_start : RingStart sessionRings sessionStart where
  vq_eq := rfl
  popped := rfl
  bound := Nat.zero_le _
  heads_lt := by rintro head ⟨⟩
  availIdx := by
    change leNat [255, 255] = 65535
    decide
  entries := by rintro p ⟨⟩
  valid := by rintro head ⟨⟩

theorem sessionNext_inGuest {addr len : Nat} (h : addr + len ≤ 0x8000) : InGuest sessionNext addr len := by
  intro i hi
  refine ⟨addr + i, backing_eq_some.mpr ⟨rfl, by omega, ?_, .inl ⟨.inl rfl, rfl⟩⟩⟩
  change addr + i < 0x8000
  omega

theorem exists_sessionRequest : ∃ q : ValidRequest sessionNext sessionPublished.mem sessionChain, q.OnSectors := by
  have hheader : InGuest sessionNext 0x3000 16 := sessionNext_inGuest (by decide)
  have hdata : InGuest sessionNext 0x4000 512 := sessionNext_inGuest (by decide)
  have hstatus : InGuest sessionNext 0x5000 1 := sessionNext_inGuest (by decide)
  refine ⟨⟨⟨0x3000, 16, 1, 1⟩, [⟨0x4000, 512, 1, 2⟩], ⟨0x5000, 1, 2, 0⟩, rfl, Nat.le_refl 16, hheader,
    List.forall_mem_singleton.mpr hdata, List.forall_mem_singleton.mpr (by decide), Nat.le_refl 1, hstatus,
    Nat.succ_ne_zero 1, List.pairwise_singleton _ _⟩, ?_⟩
  have htype : requestTypeOf (guestBytes sessionNext sessionPublished.mem 0x3000 16) = virtioBlkTOut := by decide
  have hsector : sectorOf (guestBytes sessionNext sessionPublished.mem 0x3000 16) < 2 ^ 55 := by decide
  unfold ValidRequest.OnSectors ValidRequest.requestType
  rw [htype]
  exact .inr ⟨hsector, fun _ => Nat.dvd_refl 512, trivial⟩

theorem session_valid : sessionRings.ValidChain sessionMem 0 := by
  refine ⟨sessionChain.descriptors, rfl, ?_⟩
  rw [Rings.BuffersApart, sessionChain, List.forall_mem_cons, List.forall_mem_cons, List.forall_mem_singleton]
  refine ⟨fun h => absurd rfl h, fun h => absurd rfl h, ?_⟩
  intro _ off hoff a ha ha' hholds
  obtain rfl : 0x5000 = off := Option.some.inj hoff
  rcases hholds with h | h | h
  · have hlt : a < 0 + 16 * 4 := h.2
    omega
  · have hlt : a < 0x1000 + (4 + 2 * 4) := h.2
    omega
  · have hlt : a < 0x2000 + (4 + 8 * 4) := h.2
    omega

end OneWrite

theorem session_refines_disk_write : ∃ s answer content',
    Steps (SessionStep plainEnv sessionRings) sessionStart [none, some answer] s ∧
      Steps (DiskStep false) (HostFile.empty.setLen (2 * sectorSize)).data [answer] content' := by
  have hpublish : SessionStep plainEnv sessionRings sessionStart none sessionPublished :=
    .driver (a := .publish 0) (by intro h; cases h) (.publish (by decide) (by decide) session_valid)
  obtain ⟨q, hsectors⟩ := exists_sessionRequest
  have hserve := @SessionStep.serve _ _ _ plainEnv sessionRings _ _ _ q rfl hsectors
  have hrun := Steps.cons hpublish (.cons hserve (.nil _))
  have hvq : QueueOk (wrapQueue 4) := ⟨⟨rfl, by decide, by decide, by decide⟩, by decide⟩
  obtain ⟨content', hdisk, -⟩ := session_refines_disk plainEnv ValidRequest.blankContent _ sessionRings hvq
    ⟨by decide, by decide, by decide⟩ sessionStart_start (ValidRequest.blankDisk_shows 2) hrun
  exact ⟨_, _, content', hrun, hdisk⟩

end CloneVmm.Virtio.Block
