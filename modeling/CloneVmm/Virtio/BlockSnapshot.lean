import CloneVmm.Virtio.BlockDevice
import CloneVmm.Virtio.TransportJson
import CloneVmm.Vmm.Serial

namespace CloneVmm.Virtio.Block

open CloneVmm.Lib CloneVmm.Vmm CloneVmm.Control.Protocol

variable {B F : Type}

namespace BlockDevice

variable (dev : BlockDevice B)

def value : Json F :=
  .object [("acked_features_high", number dev.acked.2), ("acked_features_low", number dev.acked.1),
    ("capacity_sectors", number dev.block.capacitySectors), ("readonly", .bool dev.block.readonly)]

def snapshotState (serde : SerdeValue F) : List UInt8 := serde.toBytes dev.value

def takeAcked (state : Json F) (name : String) (acked : Nat) : Nat :=
  match (Serial.member name state).bind Serial.asU64 with
  | some v => v % 2 ^ 32
  | none => acked

def restoreState (serde : SerdeValue F) (data : List UInt8) : Option (BlockDevice B) :=
  if data = [] then some dev
  else
    match serde.fromSlice data with
    | none => none
    | some state =>
      some { dev with
        acked := (takeAcked state "acked_features_low" dev.acked.1, takeAcked state "acked_features_high" dev.acked.2) }

/-- A value that a block device is written as is read again. -/
structure Reads (serde : SerdeValue F) : Prop where
  read : ∀ dev : BlockDevice B, serde.fromSlice (serde.toBytes dev.value) = some dev.value
  nonempty : ∀ dev : BlockDevice B, serde.toBytes dev.value ≠ []

theorem takeAcked_eq {state : Json F} {name : String} {n acked : Nat} (hn : n < 2 ^ 32)
    (h : Serial.member name state = some (number n)) : takeAcked state name acked = n := by
  have hsmall : (UInt64.ofNat n).toNat = n := UInt64.toNat_ofNat_of_lt' (Nat.lt_trans hn (by decide))
  have hread : Serial.asU64 (number n : Json F) = some n := by
    rw [number, ofU64, ofNat, Serial.asU64, if_pos (Int.natCast_nonneg _)]
    exact congrArg some hsmall
  rw [takeAcked, h, Option.bind_some, hread]
  exact Nat.mod_eq_of_lt hn

theorem restoreState_snapshotState {serde : SerdeValue F} (hserde : Reads (B := B) serde) {old : BlockDevice B}
    (hlow : old.acked.1 < 2 ^ 32) (hhigh : old.acked.2 < 2 ^ 32) :
    dev.restoreState serde (old.snapshotState serde) = some { dev with acked := old.acked } := by
  rw [restoreState, snapshotState, if_neg (hserde.nonempty old), hserde.read old]
  dsimp only
  rw [takeAcked_eq hlow rfl, takeAcked_eq hhigh rfl]

theorem value_floats : (dev.value : Json F).floats = [] := by
  simp [value, Json.floats, Json.floatsFields]

theorem value_depth : (dev.value : Json F).depth ≤ 127 := by
  simp only [value, depth_number, Json.depth, Json.depthFields]
  omega

theorem textValue_reads (ft : JsonText.FloatText F) : Reads (B := B) (Serial.textValue ft) := by
  have hread : ∀ dev : BlockDevice B,
      (Serial.textValue ft).fromSlice ((Serial.textValue ft).toBytes dev.value) = some dev.value := by
    intro dev
    have hfloats : ∀ x ∈ (dev.value : Json F).floats, ft.Survives x := by
      rw [value_floats]
      exact List.forall_mem_nil _
    simp only [Serial.textValue]
    rw [JsonText.ofBytes_toBytes hfloats, if_pos dev.value_depth]
  refine ⟨hread, fun dev hempty => ?_⟩
  have hnone : (Serial.textValue ft).fromSlice [] = none := rfl
  have hsome := hread dev
  rw [hempty, hnone] at hsome
  cases hsome

structure SameDisk (dev dev' : BlockDevice B) : Prop where
  block : dev.block = dev'.block
  blockSize : dev.blockSize = dev'.blockSize
  acked : dev.acked = dev'.acked

end BlockDevice

variable [Storage.Backing B]

def snapshotDevice (env : Env B) (serde : SerdeValue F) : VirtioDevice (BlockDevice B) :=
  { device env with
    snapshotState := fun dev => dev.snapshotState serde
    restoreState := fun dev data => dev.restoreState serde data }

variable {env : Env B} {serde : SerdeValue F}

theorem sameDisk_bisimulation : (snapshotDevice env serde).Bisimulation BlockDevice.SameDisk where
  features _ _ _ _ := rfl
  ackFeatures := by
    rintro dev dev' page val ⟨hblock, hsize, hacked⟩
    exact ⟨hblock, hsize, congrArg (fun acked => Virtio.VirtioBlock.ackFeatures acked page val) hacked⟩
  readConfig := by
    rintro dev dev' offset len ⟨hblock, hsize, -⟩
    change dev.readConfig offset len = dev'.readConfig offset len
    rw [BlockDevice.readConfig, BlockDevice.readConfig, BlockDevice.config, BlockDevice.config, hblock, hsize]
  writeConfig _ _ _ _ h := h
  activate := by
    rintro dev dev' mem ⟨hblock, hsize, hacked⟩
    exact ⟨rfl, ⟨hblock, hsize, hacked⟩, rfl⟩
  processQueue _ _ _ _ h := ⟨h, rfl⟩
  processDescriptorChain := by
    rintro dev dev' mem i chain vq ⟨hblock, hsize, hacked⟩
    have hsame : processDescriptorChain env dev.block mem chain vq = processDescriptorChain env dev'.block mem chain vq := by
      rw [hblock]
    refine ⟨congrArg (fun r => r.totalWritten) hsame, ⟨?_, hsize, hacked⟩, congrArg (fun r => r.mem) hsame⟩
    exact congrArg (fun r => r.dev) hsame
  transportProcessesQueue _ _ _ _ := rfl
  prepareActivate _ _ _ _ _ _ h := h
  reset := by
    rintro dev dev' ⟨hblock, hsize, -⟩
    exact ⟨hblock, hsize, rfl⟩

theorem resumes {t : MmioTransport (BlockDevice B)} {layout : GuestLayout} {mem : ByteStore} {disk : BlockDevice B}
    (hserde : BlockDevice.Reads (B := B) serde) (hops : t.ops = snapshotDevice env serde)
    (hlow : t.device.acked.1 < 2 ^ 32) (hhigh : t.device.acked.2 < 2 ^ 32) (hblock : t.device.block = disk.block)
    (hsize : t.device.blockSize = disk.blockSize) : t.Resumes layout mem disk := by
  have hfresh : (MmioTransport.fresh (snapshotDevice env serde) disk t.irq layout).device = disk := by
    rw [MmioTransport.fresh, MmioTransport.setGuestMemoryWithHole]
    dsimp only
    split
    · rfl
    · rfl
  rw [MmioTransport.Resumes, hops, hfresh]
  refine ⟨{ disk with acked := t.device.acked }, ?_, ?_⟩
  · exact BlockDevice.restoreState_snapshotState disk hserde hlow hhigh
  · have halike : ∀ activated, (snapshotDevice env serde).Alike t.device
        ⟨disk.block, disk.blockSize, t.device.acked, activated⟩ :=
      fun _ => ⟨_, sameDisk_bisimulation, hblock, hsize, rfl⟩
    split
    · exact ⟨_, rfl, halike true⟩
    · exact halike _

end CloneVmm.Virtio.Block
