import CloneVmm.Storage.Refinement
import CloneVmm.Virtio.Features
import CloneVmm.Virtio.WriteDirection

namespace CloneVmm.Virtio.Block

open CloneVmm.Lib

def queueMaxSize : Nat := 128

structure BlockDevice (B : Type) where
  block : VirtioBlock B
  blockSize : Nat
  acked : Nat × Nat
  activated : Bool

namespace BlockDevice

variable {B : Type} [Storage.Backing B] (env : Env B) (dev : BlockDevice B)

/-- The capacity is the first field of the configuration, and the block size is at 20. -/
def config : List UInt8 := leBytes 8 dev.block.capacitySectors ++ List.replicate 12 0 ++ leBytes 4 dev.blockSize

def readConfig (offset len : Nat) : List UInt8 :=
  let bytes := (dev.config.drop offset).take len
  bytes ++ List.replicate (len - bytes.length) 0

def reset : BlockDevice B := { dev with acked := (0, 0), activated := false }

def processDescriptorChain (mem : ByteStore) (chain : DescriptorChain) (vq : Virtqueue) :
    Nat × BlockDevice B × ByteStore :=
  let r := Block.processDescriptorChain env dev.block mem chain vq
  (r.totalWritten, { dev with block := r.dev }, r.mem)

end BlockDevice

def device {B : Type} [Storage.Backing B] (env : Env B) : VirtioDevice (BlockDevice B) :=
  { VirtioDevice.inert (BlockDevice B) with
    deviceType := 2
    queueMaxSizes := [queueMaxSize]
    features := fun _ => Virtio.VirtioBlock.features
    ackFeatures := fun dev page value => { dev with acked := Virtio.VirtioBlock.ackFeatures dev.acked page value }
    readConfig := BlockDevice.readConfig
    activate := fun dev mem => (true, { dev with activated := true }, mem)
    processDescriptorChain := fun dev mem _ chain vq => dev.processDescriptorChain env mem chain vq
    reset := BlockDevice.reset }

section Backends

variable {B : Type} [Storage.Backing B] {env : Env B} {base content : ByteStore} {dev : VirtioBlock B}
  {offset count sector : Nat} {data : List UInt8}

def Served (status : Option Nat) : Prop := status = some virtioBlkSOk ∨ status = some virtioBlkSIoerr

theorem fileStatus_served (ok : Bool) : Served (fileStatus ok) := by
  cases ok with
  | true => exact .inl rfl
  | false => exact .inr rfl

theorem readBackend_shows (hshows : dev.backend.Shows env base content) :
    Served (dev.readBackend env offset count).1 ∧ (dev.readBackend env offset count).2.1.length ≤ count ∧
      (dev.readBackend env offset count).2.2.Shows env base content := by
  by_cases haccepts : dev.backend.Accepts offset count
  · unfold VirtioBlock.readBackend
    cases hbackend : dev.backend with
    | raw file =>
      rw [hbackend] at hshows haccepts
      have hseek : ¬ 2 ^ 63 ≤ offset := Nat.not_le.mpr haccepts
      dsimp only
      rw [if_neg hseek]
      refine ⟨fileStatus_served _, ?_, hshows⟩
      dsimp only [RawFile.readExact]
      rw [readBytes_length]
      exact Nat.min_le_left _ _
    | qcow2 image =>
      rw [hbackend] at hshows haccepts
      obtain ⟨hlimit, hholds⟩ := hshows
      have hwp := Storage.Qcow2File.wp_readAt hholds haccepts.2
      dsimp only
      cases hrun : (Storage.Qcow2File.readAt env.host offset count).exec image with
      | mk r image' =>
        cases r with
        | error e => exact (hwp.error hrun).elim
        | ok bytes =>
          obtain ⟨rfl, hreading⟩ := hwp.ok hrun
          refine ⟨.inl rfl, ?_, hlimit, hreading.holds⟩
          dsimp only
          rw [readBytes_length]
  · rw [readBackend_refused haccepts]
    exact ⟨.inr rfl, Nat.zero_le _, hshows⟩

theorem writeBackend_cut (hshows : dev.backend.Shows env base content) :
    Served (dev.writeBackend env offset data).1 ∧
      ∃ k, (dev.writeBackend env offset data).2.Shows env base (writeBytes content offset (data.take k)) := by
  by_cases haccepts : dev.backend.Accepts offset data.length
  · unfold VirtioBlock.writeBackend
    cases hbackend : dev.backend with
    | raw file =>
      rw [hbackend] at hshows haccepts
      have hseek : ¬ 2 ^ 63 ≤ offset := Nat.not_le.mpr haccepts
      have hcontent : file.file.data = content := hshows
      dsimp only
      rw [if_neg hseek, ← hcontent]
      exact ⟨fileStatus_served _, _, rfl⟩
    | qcow2 image =>
      rw [hbackend] at hshows haccepts
      obtain ⟨hlimit, hholds⟩ := hshows
      have hwp := Storage.Qcow2File.wp_writeAt hlimit hholds haccepts.2
      dsimp only
      cases hrun : (Storage.Qcow2File.writeAt env.host offset data).exec image with
      | mk r image' =>
        cases r with
        | error e =>
          obtain ⟨rfl, -, k, hreading⟩ := hwp.error hrun
          exact ⟨.inr rfl, k, hlimit, hreading.holds⟩
        | ok _ =>
          refine ⟨.inl rfl, data.length, hlimit, ?_⟩
          rw [List.take_length]
          exact (hwp.ok hrun).holds
  · rw [writeBackend_refused haccepts]
    refine ⟨.inr rfl, 0, ?_⟩
    rw [List.take_zero, writeBytes_nil]
    exact hshows

theorem doRead_shows (hshows : dev.backend.Shows env base content) :
    Served (dev.doRead env sector count).1 ∧ (dev.doRead env sector count).2.1.length ≤ count ∧
      (dev.doRead env sector count).2.2.backend.Shows env base content := by
  unfold VirtioBlock.doRead
  by_cases hend : dev.PastEnd sector count
  · rw [if_pos hend]
    exact ⟨.inr rfl, Nat.zero_le _, hshows⟩
  · rw [if_neg hend]
    exact readBackend_shows hshows

theorem doWrite_cut (hshows : dev.backend.Shows env base content) :
    Served (dev.doWrite env sector data).1 ∧ ∃ k, (dev.doWrite env sector data).2.backend.Shows env base
      (writeBytes content (VirtioBlock.byteOffset sector) (data.take k)) := by
  have hnone : dev.backend.Shows env base (writeBytes content (VirtioBlock.byteOffset sector) (data.take 0)) := by
    rw [List.take_zero, writeBytes_nil]
    exact hshows
  unfold VirtioBlock.doWrite
  by_cases hreadonly : dev.readonly = true
  · rw [if_pos hreadonly]
    exact ⟨.inr rfl, 0, hnone⟩
  · rw [if_neg hreadonly]
    by_cases hend : dev.PastEnd sector data.length
    · rw [if_pos hend]
      exact ⟨.inr rfl, 0, hnone⟩
    · rw [if_neg hend]
      exact writeBackend_cut hshows

theorem doFlush_shows (hshows : dev.backend.Shows env base content) :
    Served (dev.doFlush env).1 ∧ (dev.doFlush env).2.backend.Shows env base content := by
  unfold VirtioBlock.doFlush
  cases hbackend : dev.backend with
  | raw file =>
    rw [hbackend] at hshows
    exact ⟨fileStatus_served _, hshows⟩
  | qcow2 image =>
    rw [hbackend] at hshows
    obtain ⟨hlimit, hholds⟩ := hshows
    have hwp := Storage.Qcow2File.wp_flush hlimit hholds.sound hholds.tableOk
    have hflushed : ∀ image', Storage.Qcow2File.Flushed env.host image image' →
        Storage.Qcow2File.Holds env.host base content image' := fun image' h => hholds.turns h.toTurns h.sound h.tableOk
    dsimp only
    cases hrun : (Storage.Qcow2File.flush env.host).exec image with
    | mk r image' =>
      cases r with
      | error e =>
        obtain ⟨rfl, -, h⟩ := hwp.error hrun
        exact ⟨.inr rfl, hlimit, hflushed image' h⟩
      | ok _ => exact ⟨.inl rfl, hlimit, hflushed image' (hwp.ok hrun)⟩

end Backends

section Data

variable {B : Type} [Storage.Backing B] {env : Env B} {base content : ByteStore} {r : Request B} {vq : Virtqueue}
  {cur : Nat} {descs : List Descriptor}

theorem moveData_in_shows (hshows : r.dev.backend.Shows env base content) :
    Served (Request.moveData env vq virtioBlkTIn cur descs r).1 ∧
      (Request.moveData env vq virtioBlkTIn cur descs r).2.dev.backend.Shows env base content := by
  revert hshows
  apply @moveData_run B _ env vq cur virtioBlkTIn descs r fun _ _ r result =>
    r.dev.backend.Shows env base content → Served result.1 ∧ result.2.dev.backend.Shows env base content
  · exact fun _ _ hshows => ⟨.inl rfl, hshows⟩
  · intro cur desc offset targets r _ hshows
    rw [move_in]
    exact ⟨(doRead_shows hshows).1, (doRead_shows hshows).2.2⟩
  · intro cur desc offset targets r result _ ih hshows
    apply ih
    rw [done_dev, move_in]
    exact (doRead_shows hshows).2.2

theorem moveData_getId :
    (Request.moveData env vq virtioBlkTGetId cur descs r).1 = some virtioBlkSOk ∧
      (Request.moveData env vq virtioBlkTGetId cur descs r).2.dev = r.dev := by
  apply @moveData_run B _ env vq cur virtioBlkTGetId descs r fun _ _ r result =>
    result.1 = some virtioBlkSOk ∧ result.2.dev = r.dev
  · exact fun _ _ => ⟨rfl, rfl⟩
  · intro cur desc offset targets r hfail
    rw [move_getId] at hfail
    exact absurd rfl hfail
  · intro cur desc offset targets r result _ ih
    rw [done_dev, move_getId] at ih
    exact ih

theorem moveData_out_readonly (hreadonly : r.dev.readonly = true) :
    (Request.moveData env vq virtioBlkTOut cur descs r).2.dev = r.dev ∧
      ((Request.moveData env vq virtioBlkTOut cur descs r).1 = some virtioBlkSOk →
        mapped vq (taken virtioBlkTOut descs) = []) := by
  have hrefused : ∀ cur desc offset (r : Request B), r.dev.readonly = true →
      r.move env virtioBlkTOut cur desc offset = (some virtioBlkSIoerr, r.fill desc offset []) := by
    intro cur desc offset r hreadonly
    rw [move_out, VirtioBlock.doWrite, if_pos hreadonly]
    rfl
  revert hreadonly
  apply @moveData_run B _ env vq cur virtioBlkTOut descs r fun _ targets r result =>
    r.dev.readonly = true → result.2.dev = r.dev ∧ (result.1 = some virtioBlkSOk → targets = [])
  · exact fun _ _ _ => ⟨rfl, fun _ => rfl⟩
  · intro cur desc offset targets r _ hreadonly
    rw [hrefused cur desc offset r hreadonly]
    exact ⟨rfl, fun hok => absurd hok ioerr_ne_ok⟩
  · intro cur desc offset targets r result hok _ hreadonly
    rw [hrefused cur desc offset r hreadonly] at hok
    exact absurd hok ioerr_ne_ok

theorem nextSector_splits {len : Nat} {lens : List Nat} (h : Splits cur (len :: lens))
    (hend : VirtioBlock.byteOffset cur + len < 2 ^ 64) :
    Splits (nextSector cur len) lens ∧
      (lens.sum ≠ 0 → nextSector cur len * sectorSize = cur * sectorSize + len) := by
  rcases h with hzero | ⟨hcur, hhead, htail⟩
  · rw [List.sum_cons] at hzero
    exact ⟨.inl (by omega), fun hne => absurd (by omega) hne⟩
  · by_cases hsum : lens.sum = 0
    · exact ⟨.inl hsum, fun hne => absurd hsum hne⟩
    · obtain ⟨hnext, hoffset⟩ := nextSector_eq hcur hend (hhead hsum)
      exact ⟨.inr ⟨hnext, htail⟩, fun _ => hoffset⟩

theorem writeBytes_at_sector {len : Nat} {lens : List Nat} (h : Splits cur (len :: lens)) {bytes : List UInt8}
    (hlen : bytes.length ≤ len) :
    writeBytes content (VirtioBlock.byteOffset cur) bytes = writeBytes content (cur * sectorSize) bytes := by
  rcases h with hzero | ⟨hcur, -⟩
  · rw [List.sum_cons] at hzero
    have hnil : bytes = [] := List.eq_nil_of_length_eq_zero (by omega)
    rw [hnil, writeBytes_nil, writeBytes_nil]
  · rw [byteOffset_eq hcur]

theorem moveData_out_cut (hsized : Sized vq) (hguest : ∀ desc ∈ descs, InGuest vq desc.addr desc.len)
    (htyped : ∀ desc ∈ descs, desc.len < 2 ^ 32) (hcur : cur < 2 ^ 64)
    (hsplits : Splits cur (lengths (taken virtioBlkTOut descs))) (hshows : r.dev.backend.Shows env base content) :
    Served (Request.moveData env vq virtioBlkTOut cur descs r).1 ∧
      ∃ k, (Request.moveData env vq virtioBlkTOut cur descs r).2.dev.backend.Shows env base
        (writeBytes content (cur * sectorSize) ((buffers vq r.mem (taken virtioBlkTOut descs)).flatten.take k)) := by
  -- on the descriptors: a buffer that is written whole becomes a part of the disk that the others are written to
  induction descs generalizing cur r content with
  | nil =>
    refine ⟨.inl rfl, 0, ?_⟩
    rw [List.take_zero, writeBytes_nil]
    exact hshows
  | cons desc descs ih =>
    obtain ⟨hhead, htail⟩ := List.forall_mem_cons.mp hguest
    obtain ⟨hlen, hlens⟩ := List.forall_mem_cons.mp htyped
    by_cases htakes : Request.Takes virtioBlkTOut desc
    · rw [taken_cons_pos htakes] at hsplits ⊢
      rw [lengths, List.map_cons, ← lengths] at hsplits
      cases hrange : vq.guestRange desc.addr desc.len with
      | none =>
        have hempty := hhead.empty hsized hrange
        have hrest : Splits cur (lengths (taken virtioBlkTOut descs)) := by
          have h := (nextSector_splits hsplits (by rw [hempty]; exact byteOffset_lt cur)).1
          rwa [hempty, nextSector_zero hcur] at h
        rw [moveData_none htakes hrange, buffers, List.map_cons, List.flatten_cons, hempty]
        exact ih htail hlens hcur hrest hshows
      | some offset =>
        have hbytes := @guestBytes_eq vq r.mem _ _ _ (hhead.backing_eq hsized hrange)
        obtain ⟨hserved, k, hcut⟩ := @doWrite_cut B _ env base content r.dev cur (readBytes r.mem offset desc.len) hshows
        rw [writeBytes_at_sector hsplits ((List.length_take_le' k _).trans (readBytes_length _ _ _).le)] at hcut
        rw [buffers, List.map_cons, List.flatten_cons, hbytes, ← buffers]
        by_cases hok : (r.move env virtioBlkTOut cur desc offset).1 = some virtioBlkSOk
        · have hstep : Request.moveData env vq virtioBlkTOut cur (desc :: descs) r =
              Request.moveData env vq virtioBlkTOut (nextSector cur desc.len) descs
                ((r.move env virtioBlkTOut cur desc offset).2.done virtioBlkTOut desc) := by
            rw [Request.moveData, if_pos htakes, hrange]
            exact if_pos hok
          rw [hstep]
          rw [move_out] at hok
          obtain ⟨haccepts, hwritten⟩ := doWrite_ok hshows hok
          rw [readBytes_length] at haccepts
          obtain ⟨hrest, hoffset⟩ := nextSector_splits hsplits (accepts_lt (Nat.lt_trans hlen (by decide)) haccepts)
          rw [writeBytes_at_sector hsplits (readBytes_length _ _ _).le] at hwritten
          have hmem : ((r.move env virtioBlkTOut cur desc offset).2.done virtioBlkTOut desc).mem = r.mem :=
            writeBytes_nil r.mem offset
          have hdev : ((r.move env virtioBlkTOut cur desc offset).2.done virtioBlkTOut desc).dev.backend.Shows env base
              (writeBytes content (cur * sectorSize) (readBytes r.mem offset desc.len)) := hwritten
          obtain ⟨hserved', k', hcut'⟩ := ih htail hlens (nextSector_lt cur desc.len) hrest hdev
          rw [hmem] at hcut'
          refine ⟨hserved', desc.len + k', ?_⟩
          have htake : (readBytes r.mem offset desc.len ++
              (buffers vq r.mem (taken virtioBlkTOut descs)).flatten).take (desc.len + k') =
              readBytes r.mem offset desc.len ++ (buffers vq r.mem (taken virtioBlkTOut descs)).flatten.take k' := by
            have hadd := @List.take_length_add_append _ (readBytes r.mem offset desc.len)
              (buffers vq r.mem (taken virtioBlkTOut descs)).flatten k'
            rwa [readBytes_length] at hadd
          rw [htake, writeBytes_append, readBytes_length]
          by_cases hsum : (lengths (taken virtioBlkTOut descs)).sum = 0
          · have hnil : (buffers vq r.mem (taken virtioBlkTOut descs)).flatten = [] := by
              apply List.eq_nil_of_length_eq_zero
              rw [List.length_flatten, buffers_lengths, hsum]
            rw [hnil, List.take_nil, writeBytes_nil] at hcut' ⊢
            exact hcut'
          · rw [hoffset hsum] at hcut'
            exact hcut'
        · have hstep : Request.moveData env vq virtioBlkTOut cur (desc :: descs) r =
              r.move env virtioBlkTOut cur desc offset := by
            rw [Request.moveData, if_pos htakes, hrange]
            exact if_neg hok
          rw [hstep, move_out]
          refine ⟨hserved, min k desc.len, ?_⟩
          rw [List.take_append_of_le_length (by rw [readBytes_length]; exact Nat.min_le_right _ _)]
          have htake : (readBytes r.mem offset desc.len).take (min k desc.len) =
              (readBytes r.mem offset desc.len).take k := by
            have hmin := @List.take_eq_take_min _ (readBytes r.mem offset desc.len) k
            rwa [readBytes_length, eq_comm] at hmin
          rw [htake]
          exact hcut
    · rw [taken_cons_neg htakes] at hsplits ⊢
      rw [moveData_skip htakes]
      exact ih htail hlens hcur hsplits hshows

end Data

section Readonly

variable {B : Type} [Storage.Backing B] {env : Env B} {dev : VirtioBlock B} {r : Request B} {vq : Virtqueue}

omit [Storage.Backing B] in
theorem touch_readonly (offset count : Nat) : (dev.touch offset count).readonly = dev.readonly := by
  unfold VirtioBlock.touch
  split
  · rfl
  · rfl

theorem processRequest_readonly (requestType sector : Nat) (data : List UInt8) :
    (dev.processRequest env requestType sector data).2.2.readonly = dev.readonly := by
  unfold VirtioBlock.processRequest VirtioBlock.doRead VirtioBlock.doWrite VirtioBlock.doFlush VirtioBlock.doDiscard
  grind [touch_readonly]

theorem moveData_readonly {requestType cur : Nat} {descs : List Descriptor} :
    (Request.moveData env vq requestType cur descs r).2.dev.readonly = r.dev.readonly := by
  apply @moveData_run B _ env vq cur requestType descs r fun _ _ r result => result.2.dev.readonly = r.dev.readonly
  · exact fun _ _ => rfl
  · exact fun _ _ _ _ _ _ => processRequest_readonly _ _ _
  · intro cur desc offset targets r result _ ih
    rw [ih, done_dev]
    exact processRequest_readonly _ _ _

end Readonly

end CloneVmm.Virtio.Block
