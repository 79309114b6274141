import CloneVmm.Virtio.BlockRequests

namespace CloneVmm.Virtio.Block

open CloneVmm.Lib

def Parsed.HasData (p : Parsed) : Prop :=
  p.requestType = virtioBlkTIn ∨ p.requestType = virtioBlkTOut ∨ p.requestType = virtioBlkTGetId

section Process

variable {B : Type} [Storage.Backing B] {env : Env B} {dev : VirtioBlock B} {vq : Virtqueue} {mem : ByteStore}
  {chain : DescriptorChain} {p : Parsed}

theorem process_data (h : parsed vq mem chain = some p) (hdata : p.HasData) :
    processDescriptorChain env dev mem chain vq =
      (Request.moveData env vq p.requestType p.sector p.data (Request.start dev mem)).2.finish vq p.statusDesc
        (Request.moveData env vq p.requestType p.sector p.data (Request.start dev mem)).1 := by
  rw [process_parsed h, Request.dispatch]
  exact if_pos hdata

end Process

theorem diskId_length {B : Type} (dev : VirtioBlock B) (count : Nat) : (dev.diskId count).length = count := by
  rw [VirtioBlock.diskId, List.length_append, List.length_take, List.length_replicate]
  omega

def Transferred {B : Type} (requestType : Nat) (r : Request B) (desc : Descriptor) : Prop :=
  desc ∈ r.served ∧ (requestType ≠ virtioBlkTOut → ∃ w : Write, (desc, w) ∈ r.filled ∧ w.data.length = desc.len)

def Honest {B : Type} (vq : Virtqueue) (mem : ByteStore) (chain : DescriptorChain) (r : Request B) : Prop :=
  ∀ p, parsed vq mem chain = some p → p.HasData → r.status = some virtioBlkSOk →
    ∀ desc ∈ taken p.requestType p.data, desc.len ≠ 0 →
      InGuest vq desc.addr desc.len ∧ Transferred p.requestType r desc

section Growth

variable {B : Type} {r : Request B} {requestType : Nat} {desc : Descriptor}

theorem done_dev : (r.done requestType desc).dev = r.dev := by
  unfold Request.done
  split
  · rfl
  · rfl

theorem done_filled : (r.done requestType desc).filled = r.filled := by
  unfold Request.done
  split
  · rfl
  · rfl

structure Grows (r r' : Request B) : Prop where
  served : ∀ desc ∈ r.served, desc ∈ r'.served
  filled : ∀ w ∈ r.filled, w ∈ r'.filled

theorem Grows.trans {r' r'' : Request B} (h : Grows r r') (h' : Grows r' r'') : Grows r r'' :=
  ⟨fun desc hdesc => h'.served desc (h.served desc hdesc), fun w hw => h'.filled w (h.filled w hw)⟩

theorem done_grows : Grows r (r.done requestType desc) :=
  ⟨fun _ h => List.mem_append_left _ h, fun w h => by rwa [done_filled]⟩

theorem Transferred.grows {r' : Request B} (h : Transferred requestType r desc) (hgrows : Grows r r') :
    Transferred requestType r' desc := by
  refine ⟨hgrows.served desc h.1, fun hne => ?_⟩
  obtain ⟨w, hw, hlength⟩ := h.2 hne
  exact ⟨w, hgrows.filled _ hw, hlength⟩

theorem finish_grows {vq : Virtqueue} {statusDesc : Descriptor} {status : Option Nat} :
    Grows r (r.finish vq statusDesc status) := by
  unfold Request.finish
  split
  · exact ⟨fun _ h => h, fun _ h => h⟩
  · split
    · split
      · exact ⟨fun _ h => h, fun _ h => h⟩
      · exact ⟨fun _ h => h, fun _ h => List.mem_append_left _ h⟩
    · exact ⟨fun _ h => h, fun _ h => h⟩

end Growth

section Moved

variable {B : Type} [Storage.Backing B] {env : Env B} {base content : ByteStore} {r : Request B} {vq : Virtqueue}
  {cur offset requestType : Nat} {desc : Descriptor} {descs : List Descriptor}

theorem move_getId : r.move env virtioBlkTGetId cur desc offset =
    (some virtioBlkSOk, { r.fill desc offset (r.dev.diskId desc.len) with dev := r.dev }) := by
  rw [Request.move, VirtioBlock.processRequest, if_neg (by decide), if_neg (by decide), if_neg (by decide), if_pos rfl,
    readBytes_length]

theorem move_ok (htype : requestType = virtioBlkTIn ∨ requestType = virtioBlkTOut ∨ requestType = virtioBlkTGetId)
    (hshows : r.dev.backend.Shows env base content)
    (h : (r.move env requestType cur desc offset).1 = some virtioBlkSOk) :
    (∃ content', (r.move env requestType cur desc offset).2.dev.backend.Shows env base content') ∧
      ∃ put, (r.move env requestType cur desc offset).2.filled = r.filled ++ [(desc, ⟨offset, put⟩)] ∧
        (requestType ≠ virtioBlkTOut → put.length = desc.len) := by
  rcases htype with rfl | rfl | rfl
  · rw [move_in] at h ⊢
    obtain ⟨-, hput, hdisk⟩ := doRead_ok hshows h
    refine ⟨⟨content, hdisk⟩, (r.dev.doRead env cur desc.len).2.1, rfl, fun _ => ?_⟩
    rw [hput, readBytes_length]
  · rw [move_out] at h ⊢
    exact ⟨⟨_, (doWrite_ok hshows h).2⟩, [], rfl, fun hne => absurd rfl hne⟩
  · rw [move_getId] at h ⊢
    exact ⟨⟨content, hshows⟩, r.dev.diskId desc.len, rfl, fun _ => diskId_length r.dev desc.len⟩

theorem move_grows : Grows r (r.move env requestType cur desc offset).2 :=
  ⟨fun _ h => h, fun _ h => List.mem_append_left _ h⟩

theorem moveData_grows : Grows r (Request.moveData env vq requestType cur descs r).2 := by
  induction descs generalizing cur r with
  | nil => exact ⟨fun _ h => h, fun _ h => h⟩
  | cons desc descs ih =>
    unfold Request.moveData
    split
    · split
      · exact ih
      · dsimp only
        split
        · exact (move_grows.trans done_grows).trans ih
        · exact move_grows
    · exact ih

theorem moveData_transferred
    (htype : requestType = virtioBlkTIn ∨ requestType = virtioBlkTOut ∨ requestType = virtioBlkTGetId)
    (hsized : Sized vq) (hguest : ∀ desc ∈ taken requestType descs, desc.len ≠ 0 → InGuest vq desc.addr desc.len)
    (hshows : r.dev.backend.Shows env base content)
    (h : (Request.moveData env vq requestType cur descs r).1 = some virtioBlkSOk) :
    ∀ desc ∈ taken requestType descs, desc.len ≠ 0 →
      Transferred requestType (Request.moveData env vq requestType cur descs r).2 desc := by
  induction descs generalizing cur r content with
  | nil => exact fun desc hdesc => absurd hdesc List.not_mem_nil
  | cons desc descs ih =>
    by_cases htakes : Request.Takes requestType desc
    · rw [taken_cons_pos htakes] at hguest ⊢
      obtain ⟨hhead, htail⟩ := List.forall_mem_cons.mp hguest
      rw [List.forall_mem_cons]
      cases hrange : vq.guestRange desc.addr desc.len with
      | none =>
        rw [moveData_none htakes hrange] at h ⊢
        refine ⟨fun hne => ?_, ih htail hshows h⟩
        exact absurd ((hhead hne).empty hsized hrange) hne
      | some offset =>
        obtain ⟨hok, hstep⟩ := moveData_some htakes hrange h
        rw [hstep] at h ⊢
        obtain ⟨⟨content', hdisk⟩, put, hfilled, hput⟩ := move_ok htype hshows hok
        have hdone : Transferred requestType ((r.move env requestType cur desc offset).2.done requestType desc) desc := by
          refine ⟨List.mem_append_right _ List.mem_cons_self, fun hne => ⟨⟨offset, put⟩, ?_, hput hne⟩⟩
          rw [done_filled, hfilled]
          exact List.mem_append_right _ List.mem_cons_self
        have hdisk' : ((r.move env requestType cur desc offset).2.done requestType desc).dev.backend.Shows env base
            content' := by
          rwa [done_dev]
        exact ⟨fun _ => hdone.grows moveData_grows, ih htail hdisk' h⟩
    · rw [taken_cons_neg htakes] at hguest ⊢
      rw [moveData_skip htakes] at h ⊢
      exact ih hguest hshows h

end Moved

def OutOfReach (vq : Virtqueue) : Nat → List Descriptor → Prop
  | _, [] => False
  | cur, desc :: descs =>
    if (vq.guestRange desc.addr desc.len).isSome then
      2 ^ 63 ≤ VirtioBlock.byteOffset cur ∨ OutOfReach vq (nextSector cur desc.len) descs
    else OutOfReach vq cur descs

theorem raw_accepts {B : Type} {dev : VirtioBlock B} {file : RawFile} {offset count : Nat}
    (h : dev.backend = .raw file) (haccepts : dev.backend.Accepts offset count) : offset < 2 ^ 63 := by
  rwa [h] at haccepts

section Large

variable {B : Type} {env : Env B} {dev : VirtioBlock B} {offset sector count : Nat}

structure Serves (env : Env B) (dev : VirtioBlock B) : Prop where
  raw : ∃ file : HostFile, dev.backend = .raw ⟨file, []⟩ ∧ 2 ^ 64 ≤ file.len
  readonly : dev.readonly = false
  capacity : dev.capacitySectors = 2 ^ 55 - 1
  limit : env.host.limit = 2 ^ 64

theorem Serves.not_pastEnd (h : Serves env dev) (hoffset : VirtioBlock.byteOffset sector < 2 ^ 63)
    (hcount : count < 2 ^ 32) : ¬ dev.PastEnd sector count := by
  have hcapacity : (2 ^ 55 - 1) * sectorSize % 2 ^ 64 = 2 ^ 64 - 512 := by decide
  unfold VirtioBlock.PastEnd
  rw [h.capacity, hcapacity, Nat.mod_eq_of_lt (by omega)]
  omega

theorem Serves.touch (h : Serves env dev) {file : HostFile} (hlen : 2 ^ 64 ≤ file.len) :
    Serves env { dev.touch offset count with backend := .raw ⟨file, []⟩ } := by
  refine ⟨⟨file, rfl, hlen⟩, ?_, ?_, h.limit⟩
  · unfold VirtioBlock.touch
    split
    · exact h.readonly
    · exact h.readonly
  · unfold VirtioBlock.touch
    split
    · exact h.capacity
    · exact h.capacity

end Large

section Raw

variable {B : Type} [Storage.Backing B] {env : Env B} {r : Request B} {dev : VirtioBlock B} {vq : Virtqueue}
  {cur offset sector count requestType : Nat} {data : List UInt8} {desc : Descriptor} {descs : List Descriptor}
  {file : RawFile}

theorem doRead_raw (h : dev.backend = .raw file) : ∃ file', (dev.doRead env sector count).2.2.backend = .raw file' := by
  unfold VirtioBlock.doRead VirtioBlock.readBackend
  split
  · exact ⟨file, h⟩
  · rw [h]
    dsimp only
    split
    · exact ⟨_, rfl⟩
    · exact ⟨_, rfl⟩

theorem doWrite_raw (h : dev.backend = .raw file) : ∃ file', (dev.doWrite env sector data).2.backend = .raw file' := by
  unfold VirtioBlock.doWrite VirtioBlock.writeBackend
  split
  · exact ⟨file, h⟩
  · split
    · exact ⟨file, h⟩
    · rw [h]
      dsimp only
      split
      · exact ⟨_, rfl⟩
      · exact ⟨_, rfl⟩

theorem raw_shows (env : Env B) (h : dev.backend = .raw file) : dev.backend.Shows env (fun _ => 0) file.file.data := by
  rw [h]
  rfl

theorem move_raw (htype : requestType = virtioBlkTIn ∨ requestType = virtioBlkTOut) (h : r.dev.backend = .raw file)
    (hok : (r.move env requestType cur desc offset).1 = some virtioBlkSOk) :
    VirtioBlock.byteOffset cur < 2 ^ 63 ∧
      ∃ file', (r.move env requestType cur desc offset).2.dev.backend = .raw file' := by
  rcases htype with rfl | rfl
  · rw [move_in] at hok ⊢
    exact ⟨raw_accepts h (doRead_ok (raw_shows env h) hok).1, doRead_raw h⟩
  · rw [move_out] at hok ⊢
    exact ⟨raw_accepts h (doWrite_ok (raw_shows env h) hok).1, doWrite_raw h⟩

theorem not_outOfReach (htype : requestType = virtioBlkTIn ∨ requestType = virtioBlkTOut)
    (h : r.dev.backend = .raw file) (hok : (Request.moveData env vq requestType cur descs r).1 = some virtioBlkSOk) :
    ¬ OutOfReach vq cur (taken requestType descs) := by
  induction descs generalizing cur r file with
  | nil => exact id
  | cons desc descs ih =>
    by_cases htakes : Request.Takes requestType desc
    · rw [taken_cons_pos htakes, OutOfReach]
      cases hrange : vq.guestRange desc.addr desc.len with
      | none =>
        rw [moveData_none htakes hrange] at hok
        exact ih h hok
      | some offset =>
        obtain ⟨hmoved, hstep⟩ := moveData_some htakes hrange hok
        rw [hstep] at hok
        obtain ⟨hlt, file', hfile⟩ := move_raw htype h hmoved
        rw [← @done_dev B _ requestType desc] at hfile
        rintro (hge | hrest)
        · omega
        · exact ih hfile hok hrest
    · rw [taken_cons_neg htakes]
      rw [moveData_skip htakes] at hok
      exact ih h hok

theorem Serves.doRead (h : Serves env dev) (hoffset : VirtioBlock.byteOffset sector < 2 ^ 63) (hcount : count < 2 ^ 32) :
    (dev.doRead env sector count).1 = some virtioBlkSOk ∧ Serves env (dev.doRead env sector count).2.2 := by
  obtain ⟨file, hfile, hlen⟩ := h.raw
  have hmoved : (RawFile.mk file []).moved count (file.len - VirtioBlock.byteOffset sector) = count := by
    unfold RawFile.moved
    rw [List.headD_nil]
    omega
  unfold VirtioBlock.doRead VirtioBlock.readBackend
  rw [if_neg (h.not_pastEnd hoffset hcount), hfile]
  dsimp only
  rw [if_neg (Nat.not_le.mpr hoffset)]
  refine ⟨?_, h.touch hlen⟩
  dsimp only [RawFile.readExact]
  rw [hmoved, beq_self_eq_true]
  rfl

theorem Serves.doWrite (h : Serves env dev) (hoffset : VirtioBlock.byteOffset sector < 2 ^ 63)
    (hcount : data.length < 2 ^ 32) :
    (dev.doWrite env sector data).1 = some virtioBlkSOk ∧ Serves env (dev.doWrite env sector data).2 := by
  obtain ⟨file, hfile, hlen⟩ := h.raw
  have hmoved : (RawFile.mk file []).moved data.length (2 ^ 64 - VirtioBlock.byteOffset sector) = data.length := by
    unfold RawFile.moved
    rw [List.headD_nil]
    omega
  unfold VirtioBlock.doWrite VirtioBlock.writeBackend
  rw [h.readonly, if_neg (by decide), if_neg (h.not_pastEnd hoffset hcount), hfile]
  dsimp only
  rw [if_neg (Nat.not_le.mpr hoffset)]
  refine ⟨?_, h.touch (Nat.le_trans hlen (HostFile.len_le_write_len _ _ _))⟩
  dsimp only [RawFile.writeAll]
  rw [h.limit, hmoved, beq_self_eq_true]
  rfl

theorem Serves.move (h : Serves env r.dev)
    (htype : requestType = virtioBlkTIn ∨ requestType = virtioBlkTOut ∨ requestType = virtioBlkTGetId)
    (hlen : desc.len < 2 ^ 32)
    (hoffset : requestType = virtioBlkTIn ∨ requestType = virtioBlkTOut → VirtioBlock.byteOffset cur < 2 ^ 63) :
    (r.move env requestType cur desc offset).1 = some virtioBlkSOk ∧
      Serves env (r.move env requestType cur desc offset).2.dev := by
  rcases htype with rfl | rfl | rfl
  · rw [move_in]
    exact h.doRead (hoffset (.inl rfl)) hlen
  · rw [move_out]
    exact h.doWrite (hoffset (.inr rfl)) (by rwa [readBytes_length])
  · rw [move_getId]
    exact ⟨rfl, h⟩

theorem moveData_serves (h : Serves env r.dev)
    (htype : requestType = virtioBlkTIn ∨ requestType = virtioBlkTOut ∨ requestType = virtioBlkTGetId)
    (htyped : ∀ desc ∈ descs, desc.len < 2 ^ 32)
    (hreach : requestType = virtioBlkTIn ∨ requestType = virtioBlkTOut →
      ¬ OutOfReach vq cur (taken requestType descs)) :
    (Request.moveData env vq requestType cur descs r).1 = some virtioBlkSOk := by
  induction descs generalizing cur r with
  | nil => rfl
  | cons desc descs ih =>
    obtain ⟨hlen, hlens⟩ := List.forall_mem_cons.mp htyped
    by_cases htakes : Request.Takes requestType desc
    · rw [taken_cons_pos htakes, OutOfReach] at hreach
      cases hrange : vq.guestRange desc.addr desc.len with
      | none =>
        rw [hrange] at hreach
        rw [moveData_none htakes hrange]
        exact ih h hlens hreach
      | some offset =>
        rw [hrange] at hreach
        have hmove := @Serves.move B _ env r cur offset requestType desc h htype hlen
          fun hin => Nat.not_le.mp fun hge => hreach hin (.inl hge)
        rw [Request.moveData, if_pos htakes, hrange]
        dsimp only
        rw [if_pos hmove.1]
        refine ih ?_ hlens fun hin hrest => hreach hin (.inr hrest)
        rw [done_dev]
        exact hmove.2
    · rw [taken_cons_neg htakes] at hreach
      rw [moveData_skip htakes]
      exact ih h hlens hreach

end Raw

def Parsed.Covered (vq : Virtqueue) (p : Parsed) : Prop :=
  ∀ desc ∈ taken p.requestType p.data, desc.len ≠ 0 → InGuest vq desc.addr desc.len

def Parsed.NoStatus (vq : Virtqueue) (p : Parsed) : Prop :=
  vq.guestRange p.statusDesc.addr p.statusDesc.len = none ∨ p.statusDesc.len = 0

def Parsed.Unserved (vq : Virtqueue) (p : Parsed) : Prop :=
  (p.requestType = virtioBlkTIn ∨ p.requestType = virtioBlkTOut) ∧
    OutOfReach vq p.sector (taken p.requestType p.data)

section Status

variable {B : Type} [Storage.Backing B] {env : Env B} {base content : ByteStore} {dev : VirtioBlock B} {vq : Virtqueue}
  {mem : ByteStore} {chain : DescriptorChain} {p : Parsed} {file : RawFile}

theorem moved_of_status (hparsed : parsed vq mem chain = some p) (hdata : p.HasData)
    (h : (processDescriptorChain env dev mem chain vq).status = some virtioBlkSOk) :
    (Request.moveData env vq p.requestType p.sector p.data (Request.start dev mem)).1 = some virtioBlkSOk := by
  rw [process_data hparsed hdata] at h
  exact status_of_finish moveData_status h

theorem status_of_moved (hparsed : parsed vq mem chain = some p) (hdata : p.HasData) (hstatus : ¬ p.NoStatus vq)
    (h : (Request.moveData env vq p.requestType p.sector p.data (Request.start dev mem)).1 = some virtioBlkSOk) :
    (processDescriptorChain env dev mem chain vq).status = some virtioBlkSOk := by
  unfold Parsed.NoStatus at hstatus
  rw [not_or] at hstatus
  obtain ⟨offset, hoffset⟩ := Option.ne_none_iff_exists'.mp hstatus.1
  rw [process_data hparsed hdata, h]
  unfold Request.finish Virtqueue.writeDescriptorData
  dsimp only
  rw [hoffset]
  dsimp only
  rw [if_neg hstatus.2]

theorem Parsed.NoStatus.status (h : p.NoStatus vq) (hparsed : parsed vq mem chain = some p) (hdata : p.HasData) :
    (processDescriptorChain env dev mem chain vq).status = none := by
  rw [process_data hparsed hdata]
  unfold Request.finish Virtqueue.writeDescriptorData
  split
  · exact moveData_status
  · split
    · rename_i offset hoffset
      rcases h with hnone | hempty
      · rw [hnone] at hoffset
        cases hoffset
      · rw [if_pos hempty]
        exact moveData_status
    · exact moveData_status

theorem honest_of_covered (hsized : Sized vq) (hshows : dev.backend.Shows env base content)
    (h : ∀ p, parsed vq mem chain = some p → p.HasData → p.Covered vq ∨ p.NoStatus vq) :
    Honest vq mem chain (processDescriptorChain env dev mem chain vq) := by
  intro p hparsed hdata hok desc hdesc hlen
  rcases h p hparsed hdata with hcovered | hnone
  · refine ⟨hcovered desc hdesc hlen, ?_⟩
    have hmoved := moved_of_status hparsed hdata hok
    have htransferred : Transferred p.requestType
        (Request.moveData env vq p.requestType p.sector p.data (Request.start dev mem)).2 desc :=
      moveData_transferred hdata hsized hcovered hshows hmoved desc hdesc hlen
    rw [process_data hparsed hdata]
    exact htransferred.grows finish_grows
  · rw [hnone.status hparsed hdata] at hok
    cases hok

theorem honest_of_unserved (hraw : dev.backend = .raw file)
    (h : ∀ p, parsed vq mem chain = some p → p.HasData → p.Unserved vq) :
    Honest vq mem chain (processDescriptorChain env dev mem chain vq) := by
  intro p hparsed hdata hok
  obtain ⟨htype, hreach⟩ := h p hparsed hdata
  exact absurd hreach (not_outOfReach htype hraw (moved_of_status hparsed hdata hok))

end Status

theorem parsed_data {vq : Virtqueue} {mem : ByteStore} {chain : DescriptorChain} {p : Parsed}
    (h : parsed vq mem chain = some p) : ∀ desc ∈ p.data, desc ∈ chain.descriptors := by
  unfold parsed at h
  split at h
  · rename_i headerDesc desc descs heq
    split at h
    · cases h
    · obtain ⟨header, -, rfl⟩ := Option.map_eq_some_iff.mp h
      intro d hd
      rw [heq]
      exact List.mem_cons_of_mem _ ((List.dropLast_sublist _).subset hd)
  · cases h

def largeHost : Storage.Host := { Storage.baseHost with limit := 2 ^ 64 }

def largeEnv (B : Type) : Env B := ⟨largeHost, fun _ _ _ => []⟩

def largeDisk (B : Type) : VirtioBlock B := ⟨.raw ⟨HostFile.empty.setLen (2 ^ 64), []⟩, [], false, 2 ^ 55 - 1, []⟩

theorem largeDisk_serves (B : Type) : Serves (largeEnv B) (largeDisk B) :=
  ⟨⟨HostFile.empty.setLen (2 ^ 64), rfl, Nat.le_refl _⟩, rfl, rfl, rfl⟩

/-- A request whose buffers are all in the guest's memory, or that has no byte for its status, is honest on every disk; a
raw disk is honest on no others, but those that it cannot reach. -/
theorem honest_iff {B : Type} [Storage.Backing B] (vq : Virtqueue) (mem : ByteStore) (chain : DescriptorChain)
    (hsized : Sized vq) (htyped : ∀ desc ∈ chain.descriptors, desc.len < 2 ^ 32) :
    (∀ (env : Env B) (base content : ByteStore) (dev : VirtioBlock B), dev.backend.Shows env base content →
      (∀ p, parsed vq mem chain = some p → p.HasData → p.Covered vq ∨ p.NoStatus vq) →
        Honest vq mem chain (processDescriptorChain env dev mem chain vq)) ∧
    ((∀ (env : Env B) (dev : VirtioBlock B) (file : RawFile), dev.backend = .raw file →
      Honest vq mem chain (processDescriptorChain env dev mem chain vq)) ↔
        ∀ p, parsed vq mem chain = some p → p.HasData → p.Covered vq ∨ p.NoStatus vq ∨ p.Unserved vq) := by
  refine ⟨fun env base content dev hshows h => honest_of_covered hsized hshows h, ?_, ?_⟩
  · intro hhonest p hparsed hdata
    by_contra hnot
    rw [not_or, not_or] at hnot
    obtain ⟨hcovered, hstatus, hserved⟩ := hnot
    have hmoved : (Request.moveData (largeEnv B) vq p.requestType p.sector p.data
        (Request.start (largeDisk B) mem)).1 = some virtioBlkSOk := by
      apply moveData_serves (largeDisk_serves B) hdata
      · exact fun desc hdesc => htyped desc (parsed_data hparsed desc hdesc)
      · exact fun htype hreach => hserved ⟨htype, hreach⟩
    have hok := status_of_moved hparsed hdata hstatus hmoved
    exact hcovered fun desc hdesc hlen => (hhonest (largeEnv B) (largeDisk B) _ rfl p hparsed hdata hok desc hdesc hlen).1
  · intro hcond env dev file hraw p hparsed hdata
    have hunique : ∀ p', parsed vq mem chain = some p' → p' = p :=
      fun p' hp' => Option.some.inj (hp'.symm.trans hparsed)
    rcases hcond p hparsed hdata with hcovered | hstatus | hunserved
    · exact honest_of_covered hsized (raw_shows env hraw) (fun p' hp' _ => .inl (hunique p' hp' ▸ hcovered)) p hparsed hdata
    · exact honest_of_covered hsized (raw_shows env hraw) (fun p' hp' _ => .inr (hunique p' hp' ▸ hstatus)) p hparsed hdata
    · exact honest_of_unserved hraw (fun p' hp' _ => hunique p' hp' ▸ hunserved) p hparsed hdata

section Skipped

open ValidRequest

theorem honest_wholeSector : Honest flatQueue writeMem (writeChain 512)
    (processDescriptorChain plainEnv (blankDisk 2) writeMem (writeChain 512) flatQueue) := by
  have hparsed := wholeSector.parsed_eq flatQueue_sized
  have htyped : ∀ desc ∈ (writeChain 512).descriptors, desc.len < 2 ^ 32 := by decide
  refine (honest_iff flatQueue writeMem (writeChain 512) flatQueue_sized htyped).1 plainEnv blankContent _ (blankDisk 2)
    (blankDisk_shows 2) ?_
  intro p hp _
  obtain rfl := Option.some.inj (hparsed.symm.trans hp)
  exact .inl fun desc hdesc _ => wholeSector.guest desc (List.mem_of_mem_filter hdesc)

def unmappedChain : DescriptorChain := ⟨0, [⟨0x1000, 16, 1, 1⟩, ⟨0x20000, 512, 1, 2⟩, ⟨0x4000, 1, 2, 0⟩]⟩

theorem honest_fails : ¬ Honest flatQueue writeMem unmappedChain
    (processDescriptorChain plainEnv (blankDisk 2) writeMem unmappedChain flatQueue) := by
  intro hhonest
  have hparsed : parsed flatQueue writeMem unmappedChain =
      some ⟨1, 0, [⟨0x20000, 512, 1, 2⟩], ⟨0x4000, 1, 2, 0⟩⟩ := by
    rfl
  have hok : (processDescriptorChain plainEnv (blankDisk 2) writeMem unmappedChain flatQueue).status =
      some virtioBlkSOk := by
    decide
  have hmem : (⟨0x20000, 512, 1, 2⟩ : Descriptor) ∈ taken 1 [⟨0x20000, 512, 1, 2⟩] := by decide
  obtain ⟨hguest, -⟩ := hhonest _ hparsed (.inr (.inl rfl)) hok _ hmem (by decide)
  obtain ⟨host, hhost⟩ := hguest 0 (by decide)
  obtain ⟨-, -, hlt, hcases⟩ := backing_eq_some.mp hhost
  have hsize : flatQueue.guestMemSize = 0x10000 := rfl
  have hstart : flatQueue.holeStart = 0 := rfl
  dsimp only at hcases
  omega

end Skipped

end CloneVmm.Virtio.Block
