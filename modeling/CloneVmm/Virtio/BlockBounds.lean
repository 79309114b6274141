import CloneVmm.Storage.Backing
import CloneVmm.Virtio.Block

namespace CloneVmm.Virtio.Block

open CloneVmm.Lib

variable {B : Type} {env : Env B} {dev : VirtioBlock B}

section Backends

variable [Storage.Backing B] {image : Storage.Qcow2File B} {offset count : Nat} {data : List UInt8}

theorem readAt_refused (h : ¬ (offset + count < 2 ^ 64 ∧ offset + count ≤ image.header.size)) :
    ∃ e, e ≠ Storage.Qcow2Error.panicked ∧
      (Storage.Qcow2File.readAt env.host offset count).exec image = (.error e, image) := by
  have hexec : (Storage.Qcow2File.readAt env.host offset count).exec image =
      (if 2 ^ 64 ≤ offset + count then throw .offsetOverflow
        else if offset + count ≤ image.header.size then
          Storage.Qcow2File.readLoop env.host image.header.clusterBits offset count
        else throw .readPastEnd : Storage.Io B _).exec image := Prog.exec_bind get _ image
  rw [hexec]
  split
  · exact ⟨.offsetOverflow, by decide, rfl⟩
  · rw [if_neg (by omega)]
    exact ⟨.readPastEnd, by decide, rfl⟩

theorem writeAt_refused (h : ¬ (offset + data.length < 2 ^ 64 ∧ offset + data.length ≤ image.header.size)) :
    ∃ e, e ≠ Storage.Qcow2Error.panicked ∧
      (Storage.Qcow2File.writeAt env.host offset data).exec image = (.error e, image) := by
  have hexec : (Storage.Qcow2File.writeAt env.host offset data).exec image =
      (if 2 ^ 64 ≤ offset + data.length then throw .offsetOverflow
        else if offset + data.length ≤ image.header.size then
          Storage.Qcow2File.writeLoop env.host image.header.clusterBits offset data
        else throw .writePastEnd : Storage.Io B _).exec image := Prog.exec_bind get _ image
  rw [hexec]
  split
  · exact ⟨.offsetOverflow, by decide, rfl⟩
  · rw [if_neg (by omega)]
    exact ⟨.writePastEnd, by decide, rfl⟩

theorem ioerr_ne_ok : some virtioBlkSIoerr ≠ some virtioBlkSOk := by decide

theorem imageStatus_error {α : Type} {e : Storage.Qcow2Error} (h : e ≠ .panicked) :
    imageStatus (.error e : Except Storage.Qcow2Error α) = some virtioBlkSIoerr := by
  cases e
  case panicked => exact absurd rfl h
  all_goals rfl

theorem readBackend_refused (h : ¬ dev.backend.Accepts offset count) :
    dev.readBackend env offset count = (some virtioBlkSIoerr, [], dev.backend) := by
  unfold VirtioBlock.readBackend
  cases hbackend : dev.backend with
  | raw file =>
    rw [hbackend] at h
    exact if_pos (Nat.not_lt.mp h)
  | qcow2 image =>
    rw [hbackend] at h
    obtain ⟨e, he, hexec⟩ := @readAt_refused B env _ image offset count h
    dsimp only
    rw [hexec, if_neg h, imageStatus_error he]

theorem writeBackend_refused (h : ¬ dev.backend.Accepts offset data.length) :
    dev.writeBackend env offset data = (some virtioBlkSIoerr, dev.backend) := by
  unfold VirtioBlock.writeBackend
  cases hbackend : dev.backend with
  | raw file =>
    rw [hbackend] at h
    exact if_pos (Nat.not_lt.mp h)
  | qcow2 image =>
    rw [hbackend] at h
    obtain ⟨e, he, hexec⟩ := @writeAt_refused B env _ image offset data h
    dsimp only
    rw [hexec, imageStatus_error he]

end Backends

def InBounds (dev : VirtioBlock B) (sector count : Nat) : Prop :=
  sector * sectorSize + count ≤ dev.capacitySectors * sectorSize

def BlockBackend.disk : BlockBackend B → HostFile ⊕ Storage.Qcow2File B
  | raw file => .inl file.file
  | qcow2 image => .inr image

structure Held (dev : VirtioBlock B) (status : Option Nat) (put : List UInt8) (after : VirtioBlock B) : Prop where
  status : status = some virtioBlkSIoerr
  put : put = []
  touched : after.touched = dev.touched
  disk : after.backend.disk = dev.backend.disk

/-- The sector is below the 55 bits that a byte offset leaves it, or its range is refused after the wrap as well. -/
def Caught (dev : VirtioBlock B) (sector count : Nat) : Prop :=
  sector < 2 ^ 55 ∨ InBounds dev sector count ∨ dev.PastEnd sector count ∨
    ¬ dev.backend.Accepts (VirtioBlock.byteOffset sector) count

def DiscardRefused (env : Env B) (dev : VirtioBlock B) (sector byteLen : Nat) : Prop :=
  ∃ file, dev.backend = .raw file ∧ file.punches env.host.limit (VirtioBlock.byteOffset sector) byteLen = false

section Bounds

variable {sector count : Nat} {data : List UInt8}

theorem accepts_lt (hcount : count < 2 ^ 63) {offset : Nat} (h : dev.backend.Accepts offset count) :
    offset + count < 2 ^ 64 := by
  unfold BlockBackend.Accepts at h
  split at h
  · omega
  · exact h.1

theorem inBounds_of_accepted (hcount : count < 2 ^ 63) (hsector : sector < 2 ^ 55) (hend : ¬ dev.PastEnd sector count)
    (haccepts : dev.backend.Accepts (VirtioBlock.byteOffset sector) count) : InBounds dev sector count := by
  have hlt := accepts_lt hcount haccepts
  have hoffset : VirtioBlock.byteOffset sector = sector * 512 := Nat.mod_eq_of_lt (by unfold sectorSize; omega)
  have hcapacity := Nat.mod_le (dev.capacitySectors * sectorSize) (2 ^ 64)
  unfold VirtioBlock.PastEnd at hend
  rw [hoffset] at hend hlt
  rw [Nat.mod_eq_of_lt hlt] at hend
  unfold InBounds sectorSize at *
  omega

theorem caught_iff (hcount : count < 2 ^ 63) : Caught dev sector count ↔ InBounds dev sector count ∨
    dev.PastEnd sector count ∨ ¬ dev.backend.Accepts (VirtioBlock.byteOffset sector) count := by
  unfold Caught
  constructor
  · rintro (hsector | h)
    · by_cases hend : dev.PastEnd sector count
      · exact .inr (.inl hend)
      · by_cases haccepts : dev.backend.Accepts (VirtioBlock.byteOffset sector) count
        · exact .inl (inBounds_of_accepted hcount hsector hend haccepts)
        · exact .inr (.inr haccepts)
    · exact h
  · exact .inr

theorem touched_ne (backend : BlockBackend B) {offset : Nat} (h : dev.backend.Accepts offset count) :
    ({ dev.touch offset count with backend := backend } : VirtioBlock B).touched ≠ dev.touched := by
  rw [VirtioBlock.touch, if_pos h]
  intro heq
  have hlength := congrArg List.length heq
  rw [List.length_append, List.length_singleton] at hlength
  omega

theorem touch_refused {offset : Nat} (h : ¬ dev.backend.Accepts offset count) : dev.touch offset count = dev := if_neg h

theorem caught_iff_of {P : Prop} (hcount : count < 2 ^ 63) (hpast : dev.PastEnd sector count → P)
    (hrefused : ¬ dev.PastEnd sector count → ¬ dev.backend.Accepts (VirtioBlock.byteOffset sector) count → P)
    (haccepted : ¬ dev.PastEnd sector count → dev.backend.Accepts (VirtioBlock.byteOffset sector) count → ¬ P) :
    (¬ InBounds dev sector count → P) ↔ Caught dev sector count := by
  rw [caught_iff hcount]
  constructor
  · intro hout
    by_contra hnot
    rw [not_or, not_or, not_not] at hnot
    obtain ⟨hbounds, hend, haccepts⟩ := hnot
    exact haccepted hend haccepts (hout hbounds)
  · rintro (hin | hend | hnot) hout
    · exact absurd hin hout
    · exact hpast hend
    · by_cases hend : dev.PastEnd sector count
      · exact hpast hend
      · exact hrefused hend hnot

section Access

variable [Storage.Backing B]

theorem doRead_held_iff (hcount : count < 2 ^ 63) :
    (¬ InBounds dev sector count → Held dev (dev.doRead env sector count).1 (dev.doRead env sector count).2.1
      (dev.doRead env sector count).2.2) ↔ Caught dev sector count := by
  unfold VirtioBlock.doRead
  apply caught_iff_of hcount
  · intro hend
    rw [if_pos hend]
    exact ⟨rfl, rfl, rfl, rfl⟩
  · intro hend hrefused
    rw [if_neg hend]
    dsimp only
    rw [readBackend_refused hrefused, touch_refused hrefused]
    exact ⟨rfl, rfl, rfl, rfl⟩
  · intro hend haccepts
    rw [if_neg hend]
    exact fun hheld => touched_ne _ haccepts hheld.touched

theorem doWrite_held_iff (hcount : data.length < 2 ^ 63) :
    (¬ InBounds dev sector data.length → Held dev (dev.doWrite env sector data).1 [] (dev.doWrite env sector data).2) ↔
      dev.readonly = true ∨ Caught dev sector data.length := by
  unfold VirtioBlock.doWrite
  by_cases hreadonly : dev.readonly = true
  · rw [if_pos hreadonly]
    exact ⟨fun _ => .inl hreadonly, fun _ _ => ⟨rfl, rfl, rfl, rfl⟩⟩
  · rw [if_neg hreadonly, or_iff_right hreadonly]
    apply caught_iff_of hcount
    · intro hend
      rw [if_pos hend]
      exact ⟨rfl, rfl, rfl, rfl⟩
    · intro hend hrefused
      rw [if_neg hend]
      dsimp only
      rw [writeBackend_refused hrefused, touch_refused hrefused]
      exact ⟨rfl, rfl, rfl, rfl⟩
    · intro hend haccepts
      rw [if_neg hend]
      exact fun hheld => touched_ne _ haccepts hheld.touched

end Access

theorem doDiscard_held_iff : (¬ InBounds dev sector count →
      Held dev (dev.doDiscard env sector count).1 [] (dev.doDiscard env sector count).2) ↔
    dev.readonly = true ∨ InBounds dev sector count ∨ DiscardRefused env dev sector count := by
  unfold VirtioBlock.doDiscard
  by_cases hreadonly : dev.readonly = true
  · rw [if_pos hreadonly]
    exact ⟨fun _ => .inl hreadonly, fun _ _ => ⟨rfl, rfl, rfl, rfl⟩⟩
  · rw [if_neg hreadonly, or_iff_right hreadonly]
    unfold DiscardRefused
    cases hbackend : dev.backend with
    | qcow2 image =>
      constructor
      · intro hheld
        by_contra hnot
        have hstatus : some virtioBlkSOk = some virtioBlkSIoerr := (hheld fun hin => hnot (.inl hin)).status
        exact absurd hstatus (by decide)
      · rintro (hin | ⟨file, hfile, -⟩) hout
        · exact absurd hin hout
        · cases hfile
    | raw file =>
      cases hpunches : file.punches env.host.limit (VirtioBlock.byteOffset sector) count with
      | false =>
        refine ⟨fun _ => .inr ⟨file, rfl, hpunches⟩, fun _ _ => ?_⟩
        dsimp only [RawFile.punchHole]
        rw [hpunches]
        exact ⟨rfl, rfl, rfl, by rw [hbackend]; rfl⟩
      | true =>
        constructor
        · intro hheld
          by_contra hnot
          have hstatus := (hheld fun hin => hnot (.inl hin)).status
          dsimp only [RawFile.punchHole] at hstatus
          rw [hpunches] at hstatus
          exact absurd hstatus (by decide)
        · rintro (hin | ⟨file', hfile, hrefused⟩) hout
          · exact absurd hin hout
          · cases hfile
            rw [hpunches] at hrefused
            cases hrefused

end Bounds

/-- Out of bounds the three operations are held exactly when the range is caught; a discard is caught by nothing but the
host. -/
theorem held_iff {B : Type} [Storage.Backing B] (env : Env B) (dev : VirtioBlock B) (sector : Nat) (data : List UInt8)
    (hcount : data.length < 2 ^ 63) :
    ((¬ InBounds dev sector data.length → Held dev (dev.doRead env sector data.length).1
        (dev.doRead env sector data.length).2.1 (dev.doRead env sector data.length).2.2) ↔
      Caught dev sector data.length) ∧
    ((¬ InBounds dev sector data.length → Held dev (dev.doWrite env sector data).1 [] (dev.doWrite env sector data).2) ↔
      dev.readonly = true ∨ Caught dev sector data.length) ∧
    ((¬ InBounds dev sector data.length → Held dev (dev.doDiscard env sector data.length).1 []
        (dev.doDiscard env sector data.length).2) ↔
      dev.readonly = true ∨ InBounds dev sector data.length ∨ DiscardRefused env dev sector data.length) :=
  ⟨doRead_held_iff hcount, doWrite_held_iff hcount, doDiscard_held_iff⟩

def plainEnv : Env Empty := ⟨Storage.baseHost, fun _ _ _ => []⟩

def blankDisk (sectors : Nat) : VirtioBlock Empty where
  backend := .raw ⟨HostFile.empty.setLen (sectors * sectorSize), []⟩
  fileName := []
  readonly := false
  capacitySectors := sectors
  touched := []

theorem held_pastEnd :
    Held (blankDisk 1) ((blankDisk 1).doWrite plainEnv 1 [1]).1 [] ((blankDisk 1).doWrite plainEnv 1 [1]).2 := by
  have hcount : ([1] : List UInt8).length < 2 ^ 63 := by decide
  have hcaught : Caught (blankDisk 1) 1 ([1] : List UInt8).length := .inl (by decide)
  have hout : ¬ InBounds (blankDisk 1) 1 ([1] : List UInt8).length := by
    unfold InBounds
    decide
  exact (held_iff plainEnv (blankDisk 1) 1 [1] hcount).2.1.mpr (.inr hcaught) hout

theorem held_fails :
    ¬ (¬ InBounds (blankDisk 1) (2 ^ 55) 1 → Held (blankDisk 1) ((blankDisk 1).doWrite plainEnv (2 ^ 55) [1]).1 []
      ((blankDisk 1).doWrite plainEnv (2 ^ 55) [1]).2) ∧
    ¬ (¬ InBounds (blankDisk 1) 1 512 → Held (blankDisk 1) ((blankDisk 1).doDiscard plainEnv 1 512).1 []
      ((blankDisk 1).doDiscard plainEnv 1 512).2) := by
  have hwrap : ((blankDisk 1).doWrite plainEnv (2 ^ 55) [1]).1 = some virtioBlkSOk := by decide
  have hdiscard : ((blankDisk 1).doDiscard plainEnv 1 512).1 = some virtioBlkSOk := by decide
  unfold InBounds
  constructor
  · intro hheld
    have hstatus := (hheld (by decide)).status
    rw [hwrap] at hstatus
    exact absurd hstatus (by decide)
  · intro hheld
    have hstatus := (hheld (by decide)).status
    rw [hdiscard] at hstatus
    exact absurd hstatus (by decide)

end CloneVmm.Virtio.Block
