import CloneVmm.Virtio.Lossless
import CloneVmm.Virtio.NetAgreement

namespace CloneVmm.Virtio.RingDriver

open CloneVmm.Lib CloneVmm.Virtio.Net CloneVmm.Virtio.Raw

section Buffers

variable {l : GuestLayout} {mem mem' : ByteStore} {descs : List Descriptor}

def received (l : GuestLayout) (mem : ByteStore) (descs : List Descriptor) : List UInt8 :=
  descs.flatMap fun desc =>
    if desc.flags &&& vringDescFWrite ≠ 0 then readBytes mem (gpaToPtr l desc.addr) desc.len else []

def Undisturbed (l : GuestLayout) (descs : List Descriptor) (mem mem' : ByteStore) : Prop :=
  ∀ desc ∈ descs, desc.flags &&& vringDescFWrite ≠ 0 → AgreeOn (gpaToPtr l desc.addr) desc.len mem mem'

def ChainsApart (l : GuestLayout) (descs descs' : List Descriptor) : Prop :=
  ∀ desc ∈ descs, desc.flags &&& vringDescFWrite ≠ 0 → ∀ desc' ∈ descs', desc'.flags &&& vringDescFWrite ≠ 0 →
    BufferApart l desc (gpaToPtr l desc'.addr) desc'.len

theorem received_cons (desc : Descriptor) : received l mem (desc :: descs) =
    if desc.flags &&& vringDescFWrite ≠ 0 then readBytes mem (gpaToPtr l desc.addr) desc.len ++ received l mem descs
    else received l mem descs := by
  rw [received, List.flatMap_cons]
  by_cases hwrite : desc.flags &&& vringDescFWrite ≠ 0
  · rw [if_pos hwrite, if_pos hwrite]
    rfl
  · rw [if_neg hwrite, if_neg hwrite]
    rfl

theorem received_congr (h : Undisturbed l descs mem mem') : received l mem' descs = received l mem descs := by
  induction descs with
  | nil => rfl
  | cons desc descs ih =>
    rw [received_cons, received_cons, ih fun d hd => h d (List.mem_cons_of_mem desc hd)]
    by_cases hwrite : desc.flags &&& vringDescFWrite ≠ 0
    · rw [if_pos hwrite, if_pos hwrite, readBytes_congr (h desc List.mem_cons_self hwrite)]
    · rw [if_neg hwrite, if_neg hwrite]

theorem Undisturbed.trans {mem'' : ByteStore} (h : Undisturbed l descs mem mem') (h' : Undisturbed l descs mem' mem'') :
    Undisturbed l descs mem mem'' := fun desc hmem hwrite => (h desc hmem hwrite).trans (h' desc hmem hwrite)

theorem ChainsApart.symm {descs' : List Descriptor} (h : ChainsApart l descs descs') : ChainsApart l descs' descs := by
  intro desc' hmem' hwrite' desc hmem hwrite
  exact (h desc hmem hwrite desc' hmem' hwrite').symm

theorem ChainsApart.undisturbed {descs' : List Descriptor} (h : ChainsApart l descs descs') (data : List UInt8) :
    Undisturbed l descs' mem (put mem (pieces l descs data)) := by
  intro desc' hmem' hwrite'
  apply put_pieces_agree _ data
  · exact fun _ _ _ => rfl
  · exact fun desc hmem hwrite => h desc hmem hwrite desc' hmem' hwrite'

theorem received_put (hapart : descs.Pairwise fun desc desc' => desc.flags &&& vringDescFWrite ≠ 0 →
      desc'.flags &&& vringDescFWrite ≠ 0 → BufferApart l desc (gpaToPtr l desc'.addr) desc'.len)
    (mem : ByteStore) (data : List UInt8) :
    (received l (put mem (pieces l descs data)) descs).take (data.take (room descs)).length = data.take (room descs) := by
  induction descs generalizing mem data with
  | nil => simp [room]
  | cons desc descs ih =>
    obtain ⟨hfirst, hrest⟩ := List.pairwise_cons.mp hapart
    rw [received_cons, room_cons, pieces]
    by_cases hwrite : desc.flags &&& vringDescFWrite ≠ 0
    · rw [if_pos hwrite, if_pos hwrite, if_pos hwrite]
      -- what goes into the other buffers leaves the first one alone
      have hkept : AgreeOn (gpaToPtr l desc.addr) desc.len (writeBytes mem (gpaToPtr l desc.addr) (data.take desc.len))
          (put (writeBytes mem (gpaToPtr l desc.addr) (data.take desc.len)) (pieces l descs (data.drop desc.len))) := by
        apply put_pieces_agree _ _ fun _ _ _ => rfl
        intro desc' hmem' hwrite'
        exact (hfirst desc' hmem' hwrite hwrite').symm
      have hbuffer := readBytes_congr hkept
      have htail := ih hrest (writeBytes mem (gpaToPtr l desc.addr) (data.take desc.len)) (data.drop desc.len)
      generalize hafter : put (writeBytes mem (gpaToPtr l desc.addr) (data.take desc.len))
        (pieces l descs (data.drop desc.len)) = after at hbuffer htail
      have hafter' : put mem (⟨gpaToPtr l desc.addr, data.take desc.len⟩ :: pieces l descs (data.drop desc.len)) = after :=
        hafter
      rw [hafter', hbuffer]
      rcases Nat.le_total desc.len data.length with hle | hle
      · have hfull := readBytes_writeBytes mem (gpaToPtr l desc.addr) (data.take desc.len)
        rw [List.length_take, Nat.min_eq_left hle] at hfull
        rw [hfull, List.take_add, List.length_append, List.take_append, List.take_of_length_le (Nat.le_add_right _ _),
          Nat.add_sub_cancel_left, htail]
      · have hall : data.take desc.len = data := List.take_of_length_le hle
        have hback := readBytes_writeBytes mem (gpaToPtr l desc.addr) data
        rw [hall, List.take_of_length_le (Nat.le_add_right_of_le hle), List.take_append_of_le_length (by simpa using hle),
          readBytes_take _ _ _ _ hle, hback]
    · rw [if_neg hwrite, if_neg hwrite, if_neg hwrite, Nat.zero_add]
      exact ih hrest mem data

end Buffers

variable {vq : Virtqueue} {rings : Rings vq} {mem mem' : ByteStore} {head : Nat} {descs : List Descriptor}

def LinkedAt (vq : Virtqueue) (mem : ByteStore) (head : Nat) (descs : List Descriptor) : Prop :=
  ∃ entries, Linked vq mem head entries ∧ (entries.map Prod.fst).Nodup ∧ chainDescs mem entries = descs

structure Placed (rings : Rings vq) (descs : List Descriptor) : Prop where
  mapped : ∀ desc ∈ descs, desc.flags &&& vringDescFWrite ≠ 0 → desc.len ≠ 0 →
    vq.Mapped desc.addr desc.len (gpaToPtr vq.layout desc.addr)
  table : ∀ desc ∈ descs, desc.flags &&& vringDescFWrite ≠ 0 → BufferApart vq.layout desc rings.desc (16 * vq.size)
  avail : ∀ desc ∈ descs, desc.flags &&& vringDescFWrite ≠ 0 → BufferApart vq.layout desc rings.avail (4 + 2 * vq.size)
  used : ∀ desc ∈ descs, desc.flags &&& vringDescFWrite ≠ 0 → BufferApart vq.layout desc rings.used (4 + 8 * vq.size)
  apart : descs.Pairwise fun desc desc' => desc.flags &&& vringDescFWrite ≠ 0 → desc'.flags &&& vringDescFWrite ≠ 0 →
    BufferApart vq.layout desc (gpaToPtr vq.layout desc'.addr) desc'.len

theorem linkedAt_entry (rings : Rings vq) {idx off : Nat} (hidx : idx < vq.size)
    (h : vq.Mapped (vq.descTable + idx * 16) 16 off) : off = rings.desc + idx * 16 := by
  have hoff := h.offset 0 (by decide)
  have htable := rings.descMapped.offset (idx * 16) (by omega)
  rw [Nat.add_zero, Nat.add_zero] at hoff
  exact Option.some.inj (hoff.symm.trans htable)

theorem linked_in (rings : Rings vq) {idx : Nat} {entries : List (Nat × Nat)} (h : Linked vq mem idx entries) :
    ∀ e ∈ entries, rings.desc ≤ e.2 ∧ e.2 + 16 ≤ rings.desc + 16 * vq.size := by
  induction h with
  | last hidx hmapped =>
    rw [List.forall_mem_singleton, linkedAt_entry rings hidx hmapped]
    omega
  | next hidx hmapped _ _ ih =>
    rw [List.forall_mem_cons, linkedAt_entry rings hidx hmapped]
    exact ⟨by omega, ih⟩

theorem linked_congr (rings : Rings vq) {idx : Nat} {entries : List (Nat × Nat)} (h : Linked vq mem idx entries)
    (hagree : AgreeOn rings.desc (16 * vq.size) mem mem') : Linked vq mem' idx entries := by
  have hentry : ∀ {idx off : Nat}, idx < vq.size → vq.Mapped (vq.descTable + idx * 16) 16 off →
      descriptorIn mem' off = descriptorIn mem off := by
    intro idx off hidx hmapped
    rw [linkedAt_entry rings hidx hmapped]
    exact descriptorIn_congr fun a ha ha' => hagree a (by omega) (by omega)
  induction h with
  | last hidx hmapped hlast =>
    refine .last hidx hmapped ?_
    rwa [hentry hidx hmapped]
  | next hidx hmapped hnext _ ih =>
    refine .next hidx hmapped ?_ ?_
    · rwa [hentry hidx hmapped]
    · rwa [hentry hidx hmapped]

theorem LinkedAt.congr (h : LinkedAt vq mem head descs) (hagree : AgreeOn rings.desc (16 * vq.size) mem mem') :
    LinkedAt vq mem' head descs := by
  obtain ⟨entries, hlinked, hacyclic, rfl⟩ := h
  refine ⟨entries, linked_congr rings hlinked hagree, hacyclic, ?_⟩
  apply List.map_congr_left
  intro e he
  obtain ⟨hlo, hhi⟩ := linked_in rings hlinked e he
  exact descriptorIn_congr fun a ha ha' => hagree a (by omega) (by omega)

theorem Placed.found (h : Placed rings descs) : ∀ desc ∈ descs, desc.flags &&& vringDescFWrite ≠ 0 → desc.len ≠ 0 →
    vq.writeDescriptorData desc = some (gpaToPtr vq.layout desc.addr) := by
  intro desc hmem hwrite hlen
  have hmapped := (h.mapped desc hmem hwrite hlen).guestRange_eq (i := 0) (Nat.pos_of_ne_zero hlen) (Nat.zero_add _).le
  have hgpa := (h.mapped desc hmem hwrite hlen).gpa_le
  rwa [Nat.add_zero, Nat.mod_eq_of_lt (by omega)] at hmapped

theorem Placed.buffersApart (h : Placed rings descs) : rings.BuffersApart descs := by
  intro desc hmem hwrite off hoff a ha ha' hholds
  obtain rfl : gpaToPtr vq.layout desc.addr = off := by
    have hfound := h.found desc hmem hwrite (by omega)
    exact Option.some.inj (hfound.symm.trans hoff)
  have htable := h.table desc hmem hwrite
  have havail := h.avail desc hmem hwrite
  have hused := h.used desc hmem hwrite
  unfold BufferApart Apart at htable havail hused
  unfold Rings.Holds at hholds
  omega

theorem LinkedAt.validChain (hlinked : LinkedAt vq mem head descs) (hplaced : Placed rings descs) :
    rings.ValidChain mem head := by
  obtain ⟨entries, hlinked, hacyclic, rfl⟩ := hlinked
  exact ⟨_, hlinked.walk_eq (hlinked.length_le hacyclic), hplaced.buffersApart⟩

theorem contents_congr {descs : List Descriptor}
    (h : ∀ desc ∈ descs, readable desc = true → ∀ off, vq.guestRange desc.addr desc.len = some off →
      ∀ a, off ≤ a → a < off + desc.len → mem' a = mem a) : contents vq mem' descs = contents vq mem descs := by
  induction descs with
  | nil => rfl
  | cons desc descs ih =>
    have hrest := ih fun d hd => h d (List.mem_cons_of_mem desc hd)
    rw [contents_cons, contents_cons, hrest]
    by_cases hreadable : readable desc = true
    · rw [if_pos hreadable, if_pos hreadable]
      congr 2
      unfold readDescriptorData Virtqueue.guestRead
      cases hrange : vq.guestRange desc.addr desc.len with
      | none => rfl
      | some off => exact congrArg some (readBytes_congr (h desc List.mem_cons_self hreadable off hrange))
    · rw [if_neg hreadable, if_neg hreadable]

structure Client (δ : Type) where
  ring : RingState δ
  outstanding : List (Nat × List Descriptor)
  taken : Nat

variable {δ : Type}

namespace Client

variable (s : Client δ)

def next : Nat × List Descriptor := (s.outstanding[s.ring.popped.length - s.taken]?).getD (0, [])

def complete (device : δ) (mem : ByteStore) (len : Nat) : Client δ :=
  { s with ring := { s.ring with
      device, mem
      vq := { s.ring.vq with lastAvailIdx := (s.ring.vq.lastAvailIdx + 1) % 2 ^ 16 }
      popped := s.ring.popped ++ [(s.next.1, len)] } }

def publish (rings : Rings vq) (head : Nat) (descs : List Descriptor) : Client δ :=
  { s with
    ring := { s.ring with mem := rings.publish s.ring.mem head, published := s.ring.published ++ [head] }
    outstanding := s.outstanding ++ [(head, descs)] }

def fetch (l : GuestLayout) (id len : Nat) : List UInt8 :=
  match s.outstanding.find? fun c => c.1 = id with
  | some c => (received l s.ring.mem c.2).take len
  | none => []

def release (id : Nat) : Client δ :=
  { s with outstanding := s.outstanding.filter fun c => c.1 ≠ id, taken := s.taken + 1 }

structure Spares (rings : Rings vq) (mem : ByteStore) : Prop where
  avail : AgreeOn (rings.avail + 2) (2 + 2 * vq.size) s.ring.mem mem
  used : AgreeOn rings.used (4 + 8 * vq.size) s.ring.mem mem
  linked : ∀ c ∈ s.outstanding, LinkedAt vq mem c.1 c.2
  kept : ∀ c ∈ s.outstanding, Undisturbed vq.layout c.2 s.ring.mem mem

structure MayPost (rings : Rings vq) (head : Nat) (descs : List Descriptor) : Prop where
  fits : s.outstanding.length < vq.size
  head_lt : head < 2 ^ 16
  new : head ∉ s.outstanding.map Prod.fst
  linked : LinkedAt vq s.ring.mem head descs
  placed : Placed rings descs
  apart : ∀ c ∈ s.outstanding, ChainsApart vq.layout c.2 descs

structure Finds (rings : Rings vq) (used id len : Nat) : Prop where
  more : word16 s.ring.mem (rings.used + 2) ≠ (used + s.taken) % 2 ^ 16
  id_eq : word32 s.ring.mem (rings.usedEntry ((used + s.taken) % 2 ^ 16 % vq.size)) = id
  len_eq : word32 s.ring.mem (rings.usedEntry ((used + s.taken) % 2 ^ 16 % vq.size) + 4) = len

end Client

structure Holding (rings : Rings vq) (avail used : Nat) (s : Client δ) (q : List (List UInt8)) : Prop where
  ring : RingInv rings avail used s.ring
  taken_le : s.taken ≤ s.ring.popped.length
  heads : s.outstanding.map Prod.fst = s.ring.published.drop s.taken
  distinct : (s.outstanding.map Prod.fst).Nodup
  fits : s.outstanding.length ≤ vq.size
  linked : ∀ c ∈ s.outstanding, LinkedAt vq s.ring.mem c.1 c.2
  placed : ∀ c ∈ s.outstanding, Placed rings c.2
  apart : s.outstanding.Pairwise fun c c' => ChainsApart vq.layout c.2 c'.2
  lengths : (s.ring.popped.drop s.taken).map Prod.snd = q.map List.length
  short : ∀ x ∈ q, x.length < 2 ^ 32
  filled : List.Forall₂ (fun c x => (received vq.layout s.ring.mem c.2).take x.length = x)
    (s.outstanding.take (s.ring.popped.length - s.taken)) q

namespace Holding

variable {avail used : Nat} {s : Client δ} {q : List (List UInt8)} {mem : ByteStore}

theorem length_eq (h : Holding rings avail used s q) : s.outstanding.length = s.ring.published.length - s.taken := by
  have hlength := congrArg List.length h.heads
  rwa [List.length_map, List.length_drop] at hlength

theorem next_eq (h : Holding rings avail used s q) (hlt : s.ring.popped.length < s.ring.published.length) :
    s.outstanding[s.ring.popped.length - s.taken]? = some s.next ∧ s.next ∈ s.outstanding ∧
      s.next.1 = s.ring.published[s.ring.popped.length] := by
  have hlength := h.length_eq
  have htaken := h.taken_le
  have hin : s.ring.popped.length - s.taken < s.outstanding.length := by omega
  have hget : s.outstanding[s.ring.popped.length - s.taken]? = some s.next := by
    rw [Client.next, List.getElem?_eq_getElem hin]
    rfl
  refine ⟨hget, List.mem_of_getElem? hget, ?_⟩
  have hheads := congrArg (·[s.ring.popped.length - s.taken]?) h.heads
  rw [List.getElem?_map, hget, List.getElem?_drop, Nat.add_sub_cancel' htaken, List.getElem?_eq_getElem hlt] at hheads
  exact Option.some.inj hheads

theorem filled_congr (h : Holding rings avail used s q)
    (hkept : ∀ c ∈ s.outstanding.take (s.ring.popped.length - s.taken), Undisturbed vq.layout c.2 s.ring.mem mem) :
    List.Forall₂ (fun c x => (received vq.layout mem c.2).take x.length = x)
      (s.outstanding.take (s.ring.popped.length - s.taken)) q := by
  have hsame : ∀ c ∈ s.outstanding.take (s.ring.popped.length - s.taken),
      received vq.layout mem c.2 = received vq.layout s.ring.mem c.2 := fun c hc => received_congr (hkept c hc)
  apply ((List.forall₂_and_left _ _).mpr ⟨hsame, h.filled⟩).imp
  rintro c x ⟨hsame, hx⟩
  rwa [hsame]

theorem prepare (h : Holding rings avail used s q) (hvq : QueueOk vq) (hmem : s.Spares rings mem) :
    Holding rings avail used { s with ring := { s.ring with mem } } q where
  ring := by
    apply h.ring.frame hvq.pos hmem.avail hmem.used
    intro head hhead
    have hout : head ∈ s.outstanding.map Prod.fst := by
      rw [h.heads]
      exact (List.drop_sublist_drop_left _ h.taken_le).subset hhead
    obtain ⟨c, hc, rfl⟩ := List.mem_map.mp hout
    exact (hmem.linked c hc).validChain (h.placed c hc)
  taken_le := h.taken_le
  heads := h.heads
  distinct := h.distinct
  fits := h.fits
  linked := hmem.linked
  placed := h.placed
  apart := h.apart
  lengths := h.lengths
  short := h.short
  filled := h.filled_congr fun c hc => hmem.kept c (List.mem_of_mem_take hc)

theorem post (h : Holding rings avail used s q) (hvq : QueueOk vq) {head : Nat} {descs : List Descriptor}
    (hpost : s.MayPost rings head descs) :
    Holding rings avail used (s.publish rings head descs) q := by
  obtain ⟨hroom, hhead, hnew, hlinked, hplaced, hapart⟩ := hpost
  have htable := RingInv.publish_agree rings hvq.pos s.ring.mem head rings.descAvail
  have hbuffers : ∀ descs, Placed rings descs → Undisturbed vq.layout descs s.ring.mem (rings.publish s.ring.mem head) :=
    fun descs hplaced desc hmem hwrite =>
      RingInv.publish_agree rings hvq.pos s.ring.mem head (hplaced.avail desc hmem hwrite)
  have hlength := h.length_eq
  have htaken := h.taken_le
  have hpopped := h.ring.popped_le
  unfold Client.publish
  constructor
  · exact h.ring.publish hvq (by omega) hhead (hlinked.validChain hplaced)
  · exact h.taken_le
  · rw [List.map_append, h.heads, List.drop_append_of_le_length (htaken.trans hpopped)]
    rfl
  · rw [List.map_append, List.nodup_append]
    refine ⟨h.distinct, List.pairwise_singleton _ head, ?_⟩
    rintro a ha b hb rfl
    cases List.mem_singleton.mp hb
    exact hnew ha
  · rw [List.length_append, List.length_singleton]
    exact hroom
  · intro c hc
    rcases List.mem_append.mp hc with hold | hlast
    · exact (h.linked c hold).congr htable
    · cases List.mem_singleton.mp hlast
      exact hlinked.congr htable
  · intro c hc
    rcases List.mem_append.mp hc with hold | hlast
    · exact h.placed c hold
    · cases List.mem_singleton.mp hlast
      exact hplaced
  · refine List.pairwise_append.mpr ⟨h.apart, List.pairwise_singleton _ _, fun c hc c' hc' => ?_⟩
    cases List.mem_singleton.mp hc'
    exact hapart c hc
  · exact h.lengths
  · exact h.short
  · dsimp only
    rw [List.take_append_of_le_length (by omega)]
    exact h.filled_congr fun c hc => hbuffers c.2 (h.placed c (List.mem_of_mem_take hc))

theorem oldest (h : Holding rings avail used s q) (hvq : QueueOk vq) {id len : Nat}
    (hfinds : s.Finds rings used id len) :
    ∃ c rest, s.outstanding = c :: rest ∧ c.1 = id ∧ s.release id = { s with outstanding := rest, taken := s.taken + 1 } ∧
      ∃ hlt : s.taken < s.ring.popped.length, s.ring.popped[s.taken].2 % 2 ^ 32 = len := by
  obtain ⟨hmore, hid, hlen⟩ := hfinds
  have hlength := h.length_eq
  have htaken := h.taken_le
  have hpopped := h.ring.popped_le
  have hlt : s.taken < s.ring.popped.length := by
    rcases Nat.lt_or_eq_of_le htaken with hlt | heq
    · exact hlt
    · rw [h.ring.usedIdx, heq] at hmore
      exact absurd rfl hmore
  have hroom := h.fits
  obtain ⟨hidAt, hlenAt⟩ := h.ring.elems s.taken hlt (by omega)
  rw [RingInv.slot_eq hvq.dvd, hidAt] at hid
  rw [RingInv.slot_eq hvq.dvd, hlenAt] at hlen
  obtain ⟨c, rest, hout⟩ : ∃ c rest, s.outstanding = c :: rest := by
    apply List.exists_cons_of_length_pos
    omega
  have hheads := h.heads
  rw [hout, List.map_cons, List.drop_eq_getElem_cons (hlt.trans_le hpopped)] at hheads
  obtain ⟨hfirst, -⟩ := List.cons.inj hheads
  -- the loop pops the chains in the order in which they are posted
  have hsame : s.ring.popped[s.taken].1 = s.ring.published[s.taken] := by
    have hget := congrArg (·[s.taken]?) h.ring.heads
    rw [List.getElem?_map, List.getElem?_eq_getElem hlt, List.getElem?_take_of_lt hlt,
      List.getElem?_eq_getElem (hlt.trans_le hpopped)] at hget
    exact Option.some.inj hget
  have hcid : c.1 = id := by rw [hfirst, ← hsame, hid]
  have hdistinct := h.distinct
  rw [hout, List.map_cons, List.nodup_cons] at hdistinct
  refine ⟨c, rest, hout, hcid, ?_, hlt, hlen⟩
  rw [Client.release, hout, List.filter_cons_of_neg (by simp [hcid]), List.filter_eq_self.mpr]
  intro c' hc'
  have hne : c'.1 ≠ id := by
    rintro rfl
    rw [hcid] at hdistinct
    exact hdistinct.1 (List.mem_map_of_mem hc')
  exact decide_eq_true hne

theorem take (h : Holding rings avail used s q) (hvq : QueueOk vq) {id len : Nat}
    (hfinds : s.Finds rings used id len) :
    ∃ q', q = s.fetch vq.layout id len :: q' ∧ Holding rings avail used (s.release id) q' := by
  obtain ⟨c, rest, hout, hcid, hrelease, hlt, hlen⟩ := h.oldest hvq hfinds
  have hpopped := h.ring.popped_le
  obtain ⟨x, q', rfl⟩ : ∃ x q', q = x :: q' := by
    apply List.exists_cons_of_length_pos
    have hcount := congrArg List.length h.lengths
    rw [List.length_map, List.length_map, List.length_drop] at hcount
    omega
  have hlengths := h.lengths
  rw [List.drop_eq_getElem_cons hlt, List.map_cons, List.map_cons] at hlengths
  obtain ⟨hxlen, hlengths⟩ := List.cons.inj hlengths
  have hlenx : len = x.length := by
    rw [← hlen, hxlen, Nat.mod_eq_of_lt (h.short x List.mem_cons_self)]
  have hfilled := h.filled
  obtain ⟨n, hn⟩ := Nat.exists_eq_add_of_lt hlt
  rw [hout, hn, show s.taken + n + 1 - s.taken = n + 1 by omega, List.take_succ_cons] at hfilled
  obtain ⟨hx, hfilled⟩ := List.forall₂_cons.mp hfilled
  refine ⟨q', ?_, ?_⟩
  · have hfind : s.outstanding.find? (fun c => c.1 = id) = some c := by
      rw [hout, List.find?_cons_of_pos (by simp [hcid])]
    rw [Client.fetch, hfind, hlenx]
    exact congrArg (· :: q') hx.symm
  · have hmem : ∀ c' ∈ rest, c' ∈ s.outstanding := by
      intro c' hc'
      rw [hout]
      exact List.mem_cons_of_mem c hc'
    have hheads := h.heads
    rw [hout, List.map_cons, List.drop_eq_getElem_cons (hlt.trans_le hpopped)] at hheads
    have hdistinct := h.distinct
    rw [hout, List.map_cons, List.nodup_cons] at hdistinct
    have happart := h.apart
    rw [hout, List.pairwise_cons] at happart
    have hroom := h.fits
    rw [hout, List.length_cons] at hroom
    rw [hrelease]
    constructor
    · exact h.ring
    · exact hlt
    · exact (List.cons.inj hheads).2
    · exact hdistinct.2
    · exact Nat.le_of_succ_le hroom
    · exact fun c' hc' => h.linked c' (hmem c' hc')
    · exact fun c' hc' => h.placed c' (hmem c' hc')
    · exact happart.2
    · exact hlengths
    · exact fun x' hx' => h.short x' (List.mem_cons_of_mem x hx')
    · dsimp only
      rwa [hn, show s.taken + n + 1 - (s.taken + 1) = n by omega]

theorem take_next (h : Holding rings avail used s q) (hlt : s.ring.popped.length < s.ring.published.length) :
    s.outstanding.take (s.ring.popped.length + 1 - s.taken) =
      s.outstanding.take (s.ring.popped.length - s.taken) ++ [s.next] := by
  obtain ⟨hget, -, -⟩ := h.next_eq hlt
  obtain ⟨hin, hnext⟩ := List.getElem?_eq_some_iff.mp hget
  rw [Nat.sub_add_comm h.taken_le, List.take_succ_eq_append_getElem hin, hnext]

theorem next_apart (h : Holding rings avail used s q) (hlt : s.ring.popped.length < s.ring.published.length) :
    ∀ c ∈ s.outstanding.take (s.ring.popped.length - s.taken), ChainsApart vq.layout c.2 s.next.2 := by
  have hpairs := h.apart.sublist (List.take_sublist (s.ring.popped.length + 1 - s.taken) _)
  rw [h.take_next hlt, List.pairwise_append] at hpairs
  exact fun c hc => hpairs.2.2 c hc s.next (List.mem_singleton_self _)

theorem fill (h : Holding rings avail used s q) (hvq : QueueOk vq)
    (hlt : s.ring.popped.length < s.ring.published.length) (data : List UInt8) :
    RingInv rings avail used { s.ring with mem := put s.ring.mem (pieces vq.layout s.next.2 data) } := by
  obtain ⟨-, hnext, -⟩ := h.next_eq hlt
  have hplaced := h.placed _ hnext
  have hfill := @put_pieces_agree s.ring.mem s.ring.mem
  have havail := hfill hplaced.avail data fun _ _ _ => rfl
  exact h.ring.frame hvq.pos (fun a ha ha' => havail a (by omega) (by omega))
    (hfill hplaced.used data fun _ _ _ => rfl) fun head hmem =>
      RingInv.validChain_congr (hfill hplaced.table data fun _ _ _ => rfl) (h.ring.valid head hmem)

theorem complete (h : Holding rings avail used s q) (hvq : QueueOk vq)
    (hlt : s.ring.popped.length < s.ring.published.length) (device : δ) (data : List UInt8)
    (hshort : (data.take (room s.next.2)).length < 2 ^ 32) :
    Holding rings avail used (s.complete device
      (rings.pushed (put s.ring.mem (pieces vq.layout s.next.2 data)) (word16 s.ring.mem (rings.used + 2))
        s.ring.published[s.ring.popped.length] (data.take (room s.next.2)).length) (data.take (room s.next.2)).length)
      (q ++ [data.take (room s.next.2)]) := by
  obtain ⟨-, hnext, hhead⟩ := h.next_eq hlt
  have hplaced := h.placed _ hnext
  have htaken := h.taken_le
  have hcut := h.take_next hlt
  have hfill := @put_pieces_agree s.ring.mem s.ring.mem
  have hdata := received_put hplaced.apart s.ring.mem data
  have hothers : ∀ c ∈ s.outstanding.take (s.ring.popped.length - s.taken), Undisturbed vq.layout c.2 s.ring.mem
      (put s.ring.mem (pieces vq.layout s.next.2 data)) :=
    fun c hc => (h.next_apart hlt c hc).symm.undisturbed _
  have htable := hfill hplaced.table data fun _ _ _ => rfl
  have hused := hfill hplaced.used data fun _ _ _ => rfl
  have hframe := h.fill hvq hlt data
  change _ = data.take (room s.next.2) at hdata
  generalize put s.ring.mem (pieces vq.layout s.next.2 data) = filled at hdata hothers htable hused hframe ⊢
  have hidx : word16 filled (rings.used + 2) = word16 s.ring.mem (rings.used + 2) := hused.word16_eq (by omega)
  have hpush := hframe.push hvq hlt device (data.take (room s.next.2)).length
  dsimp only at hpush
  rw [hidx] at hpush
  have htable' : AgreeOn rings.desc (16 * vq.size) s.ring.mem (rings.pushed filled (word16 s.ring.mem (rings.used + 2))
      s.ring.published[s.ring.popped.length] (data.take (room s.next.2)).length) :=
    htable.trans (rings.pushed_agree hvq.pos rings.descUsed _ _)
  have hbuffers : ∀ descs, Placed rings descs → Undisturbed vq.layout descs filled (rings.pushed filled
      (word16 s.ring.mem (rings.used + 2)) s.ring.published[s.ring.popped.length] (data.take (room s.next.2)).length) :=
    fun descs hplaced desc hmem hwrite => rings.pushed_agree hvq.pos (hplaced.used desc hmem hwrite) _ _
  generalize rings.pushed filled (word16 s.ring.mem (rings.used + 2)) s.ring.published[s.ring.popped.length]
    (data.take (room s.next.2)).length = after at hpush htable' hbuffers ⊢
  have hpopped : (s.complete device after (data.take (room s.next.2)).length).ring.popped.length =
      s.ring.popped.length + 1 := List.length_append
  constructor
  · have hring : (s.complete device after (data.take (room s.next.2)).length).ring = { s.ring with
        device
        vq := { vq with lastAvailIdx := (avail + (s.ring.popped.length + 1)) % 2 ^ 16 }
        mem := after
        popped := s.ring.popped ++
          [(s.ring.published[s.ring.popped.length], (data.take (room s.next.2)).length)] } := by
      simp only [Client.complete, hhead, h.ring.vq_eq, Nat.mod_add_mod, Nat.add_assoc]
    rw [hring]
    exact hpush
  · rw [hpopped]
    exact htaken.trans (Nat.le_succ _)
  · exact h.heads
  · exact h.distinct
  · exact h.fits
  · exact fun c hc => (h.linked c hc).congr htable'
  · exact h.placed
  · exact h.apart
  · have hlengths := h.lengths
    change ((s.ring.popped ++ [(s.next.1, (data.take (room s.next.2)).length)]).drop s.taken).map Prod.snd = _
    rw [List.drop_append_of_le_length htaken, List.map_append, List.map_append, hlengths]
    rfl
  · intro x hx
    rcases List.mem_append.mp hx with hold | hlast
    · exact h.short x hold
    · cases List.mem_singleton.mp hlast
      exact hshort
  · rw [hpopped]
    change List.Forall₂ _ (s.outstanding.take (s.ring.popped.length + 1 - s.taken)) _
    rw [hcut]
    apply List.rel_append
    · exact h.filled_congr fun c hc => (hothers c hc).trans (hbuffers c.2 (h.placed c (List.mem_of_mem_take hc)))
    · refine .cons ?_ .nil
      have hlast : (received vq.layout filled s.next.2).take (data.take (room s.next.2)).length = data.take (room s.next.2) :=
        hdata
      change (received vq.layout after s.next.2).take _ = _
      rw [received_congr (hbuffers s.next.2 hplaced), hlast]

theorem visible (hvq : QueueOk vq) (h : Holding rings avail used s q) :
    word16 s.ring.mem (rings.used + 2) ≠ (used + s.taken) % 2 ^ 16 ↔ q ≠ [] := by
  have hlength := h.length_eq
  have htaken := h.taken_le
  have hpopped := h.ring.popped_le
  have hroom := h.fits
  have hsize := hvq.lt
  have hcount := congrArg List.length h.lengths
  rw [List.length_map, List.length_map, List.length_drop] at hcount
  rw [h.ring.usedIdx, ← List.length_pos_iff_ne_nil, ← hcount]
  constructor
  · intro hne
    by_contra hnone
    rw [show s.ring.popped.length = s.taken by omega] at hne
    exact hne rfl
  · intro hsome
    exact (mod_ne_of_lt (by omega) (by omega)).symm

theorem initial (hvq : QueueOk vq) {r : RingState δ} (h₀ : RingStart rings r) (hempty : r.published = []) :
    Holding rings vq.lastAvailIdx (word16 r.mem (rings.used + 2)) ⟨r, [], 0⟩ [] := by
  refine ⟨RingInv.of_start h₀ hvq, Nat.zero_le _, ?_, List.nodup_nil, Nat.zero_le _, List.forall_mem_nil _,
    List.forall_mem_nil _, .nil, ?_, List.forall_mem_nil _, ?_⟩
  · rw [hempty]
    rfl
  · rw [h₀.popped]
    rfl
  · rw [List.take_nil]
    exact .nil

end Holding

end CloneVmm.Virtio.RingDriver
