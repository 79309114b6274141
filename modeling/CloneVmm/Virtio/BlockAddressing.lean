import CloneVmm.Memory.GuestRanges
import CloneVmm.Storage.FlatDisk
import CloneVmm.Virtio.BlockBounds

namespace CloneVmm.Virtio.Block

open CloneVmm.Lib

section GuestBuffers

variable {vq : Virtqueue} {mem : ByteStore} {addr len offset : Nat}

def InGuest (vq : Virtqueue) (addr len : Nat) : Prop := ∀ i < len, ∃ host, vq.layout.backing (addr + i) = some host

def guestBytes (vq : Virtqueue) (mem : ByteStore) (addr len : Nat) : List UInt8 :=
  (List.range len).map fun i => ((vq.layout.backing (addr + i)).map mem).getD 0

@[simp] theorem guestBytes_length : (guestBytes vq mem addr len).length = len := by
  rw [guestBytes, List.length_map, List.length_range]

theorem InGuest.backing_eq (hsized : Sized vq) (h : InGuest vq addr len) (hrange : vq.guestRange addr len = some offset) :
    ∀ i < len, vq.layout.backing (addr + i) = some (offset + i) := by
  intro i hi
  obtain ⟨hmem, htranslated, -⟩ := guestRange_eq_some.mp hrange
  have horder := hsized.hole
  obtain ⟨first, hfirst⟩ := h 0 (by omega)
  obtain ⟨host, hhost⟩ := h i hi
  have hfirst' := backing_eq_some.mp hfirst
  rw [Nat.add_zero] at hfirst'
  have hcases := gpaToOffset_cases hsized hfirst'.2.1 htranslated
  have hhost' := backing_eq_some.mp hhost
  rw [hhost, Option.some_inj]
  by_cases hcross : addr < vq.holeStart ∧ vq.holeStart ≤ addr + i
  · obtain ⟨start, hstart⟩ := h (vq.holeStart - addr) (by omega)
    have hstart' := backing_eq_some.mp hstart
    omega
  · omega

theorem InGuest.range (hsized : Sized vq) (h : InGuest vq addr len) (hpos : 0 < len) :
    ∃ offset, vq.guestRange addr len = some offset ∧ ∀ i < len, vq.layout.backing (addr + i) = some (offset + i) := by
  obtain ⟨offset, hoffset⟩ := accepted_of_backing hsized hpos h
  exact ⟨offset, hoffset, h.backing_eq hsized hoffset⟩

theorem InGuest.empty (hsized : Sized vq) (h : InGuest vq addr len) (hnone : vq.guestRange addr len = none) : len = 0 := by
  by_contra hne
  obtain ⟨offset, hoffset, -⟩ := h.range hsized (Nat.pos_of_ne_zero hne)
  rw [hoffset] at hnone
  cases hnone

theorem guestBytes_eq (h : ∀ i < len, vq.layout.backing (addr + i) = some (offset + i)) :
    guestBytes vq mem addr len = readBytes mem offset len := by
  apply List.map_congr_left
  intro i hi
  rw [h i (List.mem_range.mp hi)]
  rfl

end GuestBuffers

section Contents

variable {B : Type} [Storage.Backing B] {env : Env B} {base content : ByteStore} {dev : VirtioBlock B}
  {backend : BlockBackend B} {offset count sector : Nat} {data bytes : List UInt8}

def BlockBackend.Shows (env : Env B) (base : ByteStore) : BlockBackend B → ByteStore → Prop
  | raw file, content => file.file.data = content
  | qcow2 image, content => env.host.limit ≤ 2 ^ 54 ∧ Storage.Qcow2File.Holds env.host base content image

theorem BlockBackend.Shows.unique {content' : ByteStore} (h : backend.Shows env base content)
    (h' : backend.Shows env base content') :
    content = content' := by
  cases backend with
  | raw file => exact h.symm.trans h'
  | qcow2 image => exact h.2.content.symm.trans h'.2.content

theorem readExact_all {file file' : RawFile} (h : file.readExact offset count = (bytes, true, file')) :
    bytes = readBytes file.file.data offset count ∧ file'.file = file.file := by
  simp only [RawFile.readExact, Prod.mk.injEq, beq_iff_eq] at h
  obtain ⟨hbytes, hmoved, rfl⟩ := h
  rw [hmoved] at hbytes
  exact ⟨hbytes.symm, rfl⟩

theorem writeAll_all {file file' : RawFile} {limit : Nat} (h : file.writeAll limit offset data = (true, file')) :
    file'.file.data = writeBytes file.file.data offset data := by
  simp only [RawFile.writeAll, Prod.mk.injEq, beq_iff_eq] at h
  obtain ⟨hmoved, rfl⟩ := h
  dsimp only
  rw [hmoved, List.take_length]
  rfl

theorem fileStatus_ok {ok : Bool} (h : fileStatus ok = some virtioBlkSOk) : ok = true := by
  cases ok with
  | true => rfl
  | false => exact absurd h ioerr_ne_ok

theorem imageStatus_ok {α : Type} {result : Except Storage.Qcow2Error α} (h : imageStatus result = some virtioBlkSOk) :
    ∃ a, result = .ok a := by
  cases result with
  | ok a => exact ⟨a, rfl⟩
  | error e =>
    by_cases hpanic : e = .panicked
    · subst hpanic
      cases h
    · rw [imageStatus_error hpanic] at h
      exact absurd h ioerr_ne_ok

theorem accepts_of_read (h : (dev.readBackend env offset count).1 = some virtioBlkSOk) :
    dev.backend.Accepts offset count := by
  by_contra hrefused
  rw [readBackend_refused hrefused] at h
  exact absurd h ioerr_ne_ok

theorem accepts_of_write (h : (dev.writeBackend env offset data).1 = some virtioBlkSOk) :
    dev.backend.Accepts offset data.length := by
  by_contra hrefused
  rw [writeBackend_refused hrefused] at h
  exact absurd h ioerr_ne_ok

theorem readBackend_ok (hshows : dev.backend.Shows env base content)
    (h : (dev.readBackend env offset count).1 = some virtioBlkSOk) :
    (dev.readBackend env offset count).2.1 = readBytes content offset count ∧
      (dev.readBackend env offset count).2.2.Shows env base content := by
  have haccepts := accepts_of_read h
  unfold VirtioBlock.readBackend at h ⊢
  cases hbackend : dev.backend with
  | raw file =>
    rw [hbackend] at h hshows haccepts
    have hseek : ¬ 2 ^ 63 ≤ offset := Nat.not_le.mpr haccepts
    dsimp only at h ⊢
    rw [if_neg hseek] at h ⊢
    obtain ⟨hbytes, hfile⟩ := @readExact_all offset count _ file _ (Prod.ext rfl (Prod.ext (fileStatus_ok h) rfl))
    have hdata : file.file.data = content := hshows
    rw [hdata] at hbytes
    refine ⟨hbytes, ?_⟩
    change (file.readExact offset count).2.2.file.data = content
    rw [hfile, hdata]
  | qcow2 image =>
    rw [hbackend] at h hshows haccepts
    obtain ⟨bytes, hok⟩ := imageStatus_ok h
    obtain ⟨hlimit, hholds⟩ := hshows
    obtain ⟨hbytes, hreading⟩ := (Storage.Qcow2File.wp_readAt hholds haccepts.2).ok (Prod.ext hok rfl)
    dsimp only
    rw [hok]
    exact ⟨hbytes, hlimit, hreading.holds⟩

theorem writeBackend_ok (hshows : dev.backend.Shows env base content)
    (h : (dev.writeBackend env offset data).1 = some virtioBlkSOk) :
    (dev.writeBackend env offset data).2.Shows env base (writeBytes content offset data) := by
  have haccepts := accepts_of_write h
  unfold VirtioBlock.writeBackend at h ⊢
  cases hbackend : dev.backend with
  | raw file =>
    rw [hbackend] at h hshows haccepts
    have hseek : ¬ 2 ^ 63 ≤ offset := Nat.not_le.mpr haccepts
    dsimp only at h ⊢
    rw [if_neg hseek] at h ⊢
    have hdata := @writeAll_all offset data file _ _ (Prod.ext (fileStatus_ok h) rfl)
    have hcontent : file.file.data = content := hshows
    rw [hcontent] at hdata
    exact hdata
  | qcow2 image =>
    rw [hbackend] at h hshows haccepts
    obtain ⟨_, hok⟩ := imageStatus_ok h
    obtain ⟨hlimit, hholds⟩ := hshows
    have hreading := (Storage.Qcow2File.wp_writeAt hlimit hholds haccepts.2).ok (Prod.ext hok rfl)
    exact ⟨hlimit, hreading.holds⟩

theorem doRead_ok (hshows : dev.backend.Shows env base content)
    (h : (dev.doRead env sector count).1 = some virtioBlkSOk) :
    dev.backend.Accepts (VirtioBlock.byteOffset sector) count ∧
      (dev.doRead env sector count).2.1 = readBytes content (VirtioBlock.byteOffset sector) count ∧
      (dev.doRead env sector count).2.2.backend.Shows env base content := by
  unfold VirtioBlock.doRead at h ⊢
  by_cases hend : dev.PastEnd sector count
  · rw [if_pos hend] at h
    exact absurd h ioerr_ne_ok
  · rw [if_neg hend] at h ⊢
    exact ⟨accepts_of_read h, readBackend_ok hshows h⟩

theorem doWrite_ok (hshows : dev.backend.Shows env base content)
    (h : (dev.doWrite env sector data).1 = some virtioBlkSOk) :
    dev.backend.Accepts (VirtioBlock.byteOffset sector) data.length ∧
      (dev.doWrite env sector data).2.backend.Shows env base
        (writeBytes content (VirtioBlock.byteOffset sector) data) := by
  unfold VirtioBlock.doWrite at h ⊢
  by_cases hreadonly : dev.readonly = true
  · rw [if_pos hreadonly] at h
    exact absurd h ioerr_ne_ok
  · rw [if_neg hreadonly] at h ⊢
    by_cases hend : dev.PastEnd sector data.length
    · rw [if_pos hend] at h
      exact absurd h ioerr_ne_ok
    · rw [if_neg hend] at h ⊢
      exact ⟨accepts_of_write h, writeBackend_ok hshows h⟩

end Contents

section Positions

variable {cur len : Nat} {lens : List Nat} {content : ByteStore} {buffers : List (List UInt8)}

def nextSector (cur len : Nat) : Nat := (cur + len / sectorSize) % 2 ^ 64

def placeAll : Nat → List (List UInt8) → ByteStore → ByteStore
  | _, [], content => content
  | cur, buffer :: buffers, content =>
    placeAll (nextSector cur buffer.length) buffers (writeBytes content (VirtioBlock.byteOffset cur) buffer)

def readAll : Nat → List Nat → ByteStore → List UInt8
  | _, [], _ => []
  | cur, len :: lens, content =>
    readBytes content (VirtioBlock.byteOffset cur) len ++ readAll (nextSector cur len) lens content

def Fits : Nat → List Nat → Prop
  | _, [] => True
  | cur, len :: lens => VirtioBlock.byteOffset cur + len < 2 ^ 64 ∧ Fits (nextSector cur len) lens

def Aligned : List Nat → Prop
  | [] => True
  | len :: lens => (lens.sum ≠ 0 → sectorSize ∣ len) ∧ Aligned lens

def reachedEnd : Nat → List Nat → Nat
  | cur, [] => VirtioBlock.byteOffset cur
  | cur, len :: lens =>
    if lens.sum = 0 then VirtioBlock.byteOffset cur + len else reachedEnd (nextSector cur len) lens

theorem aligned_of_sum_zero (h : lens.sum = 0) : Aligned lens := by
  induction lens with
  | nil => trivial
  | cons len lens ih =>
    rw [List.sum_cons] at h
    exact ⟨fun hne => absurd (by omega) hne, ih (by omega)⟩

theorem byteOffset_le (cur : Nat) : VirtioBlock.byteOffset cur ≤ cur * sectorSize := Nat.mod_le _ _

theorem byteOffset_lt (cur : Nat) : VirtioBlock.byteOffset cur < 2 ^ 64 := Nat.mod_lt _ (Nat.two_pow_pos 64)

theorem byteOffset_eq (h : cur < 2 ^ 55) : VirtioBlock.byteOffset cur = cur * sectorSize := by
  apply Nat.mod_eq_of_lt
  unfold sectorSize
  omega

theorem nextSector_le : nextSector cur len * sectorSize ≤ cur * sectorSize + len := by
  have hle : nextSector cur len ≤ cur + len / sectorSize := Nat.mod_le _ _
  unfold sectorSize at *
  omega

theorem nextSector_eq (hcur : cur < 2 ^ 55) (hfits : VirtioBlock.byteOffset cur + len < 2 ^ 64) (hlen : sectorSize ∣ len) :
    nextSector cur len < 2 ^ 55 ∧ nextSector cur len * sectorSize = cur * sectorSize + len := by
  rw [byteOffset_eq hcur] at hfits
  unfold nextSector sectorSize at *
  omega

theorem placeAll_empty (h : (buffers.map List.length).sum = 0) : placeAll cur buffers content = content := by
  induction buffers generalizing cur content with
  | nil => rfl
  | cons buffer buffers ih =>
    rw [List.map_cons, List.sum_cons] at h
    have hnil : buffer = [] := List.eq_nil_of_length_eq_zero (by omega)
    rw [placeAll, ih (by omega), hnil, writeBytes_nil]

theorem placeAll_aligned (hcur : cur < 2 ^ 55) (hfits : Fits cur (buffers.map List.length))
    (haligned : Aligned (buffers.map List.length)) :
    placeAll cur buffers content = writeBytes content (cur * sectorSize) buffers.flatten := by
  induction buffers generalizing cur content with
  | nil => exact (writeBytes_nil _ _).symm
  | cons buffer buffers ih =>
    rw [placeAll, byteOffset_eq hcur, List.flatten_cons, writeBytes_append]
    by_cases hrest : (buffers.map List.length).sum = 0
    · have hnil : buffers.flatten = [] := List.eq_nil_of_length_eq_zero (by rw [List.length_flatten, hrest])
      rw [placeAll_empty hrest, hnil, writeBytes_nil]
    · obtain ⟨hnext, hoffset⟩ := nextSector_eq hcur hfits.1 (haligned.1 hrest)
      rw [ih hnext hfits.2 haligned.2, hoffset]

theorem readAll_empty (h : lens.sum = 0) : readAll cur lens content = [] := by
  induction lens generalizing cur with
  | nil => rfl
  | cons len lens ih =>
    rw [List.sum_cons] at h
    obtain rfl : len = 0 := by omega
    rw [readAll, ih (by omega)]
    rfl

theorem readAll_aligned (hcur : cur < 2 ^ 55) (hfits : Fits cur lens) (haligned : Aligned lens) :
    readAll cur lens content = readBytes content (cur * sectorSize) lens.sum := by
  induction lens generalizing cur with
  | nil => rfl
  | cons len lens ih =>
    rw [readAll, byteOffset_eq hcur, List.sum_cons, readBytes_append]
    by_cases hrest : lens.sum = 0
    · rw [readAll_empty hrest, hrest]
      rfl
    · obtain ⟨hnext, hoffset⟩ := nextSector_eq hcur hfits.1 (haligned.1 hrest)
      rw [ih hnext hfits.2 haligned.2, hoffset]

def Splits (sector : Nat) (lens : List Nat) : Prop := lens.sum = 0 ∨ sector < 2 ^ 55 ∧ Aligned lens

theorem placeAll_splits (hfits : Fits cur (buffers.map List.length)) (h : Splits cur (buffers.map List.length)) :
    placeAll cur buffers content = writeBytes content (cur * sectorSize) buffers.flatten := by
  rcases h with hzero | ⟨hcur, haligned⟩
  · have hnil : buffers.flatten = [] := List.eq_nil_of_length_eq_zero (by rw [List.length_flatten, hzero])
    rw [placeAll_empty hzero, hnil, writeBytes_nil]
  · exact placeAll_aligned hcur hfits haligned

theorem readAll_splits (hfits : Fits cur lens) (h : Splits cur lens) :
    readAll cur lens content = readBytes content (cur * sectorSize) lens.sum := by
  rcases h with hzero | ⟨hcur, haligned⟩
  · rw [readAll_empty hzero, hzero]
    rfl
  · exact readAll_aligned hcur hfits haligned

theorem placeAll_unreached {p : Nat} (hfits : Fits cur (buffers.map List.length))
    (h : 2 ^ 64 ≤ p ∨ cur * sectorSize + (buffers.map List.length).sum ≤ p) : placeAll cur buffers content p = content p := by
  induction buffers generalizing cur content with
  | nil => rfl
  | cons buffer buffers ih =>
    rw [List.map_cons, List.sum_cons] at h
    have hle := byteOffset_le cur
    have hnext := @nextSector_le cur buffer.length
    have hend := hfits.1
    rw [placeAll, ih hfits.2 (by omega)]
    exact writeBytes_above (by omega)

theorem placeAll_misaligned {p : Nat} (hfits : Fits cur (buffers.map List.length))
    (hmisaligned : ¬ Aligned (buffers.map List.length)) (h : cur * sectorSize + (buffers.map List.length).sum ≤ p + 1) :
    placeAll cur buffers content p = content p := by
  induction buffers generalizing cur content with
  | nil => exact absurd trivial hmisaligned
  | cons buffer buffers ih =>
    have hrest : (buffers.map List.length).sum ≠ 0 :=
      fun hzero => hmisaligned ⟨fun hne => absurd hzero hne, aligned_of_sum_zero hzero⟩
    rw [List.map_cons, List.sum_cons] at h
    have hle := byteOffset_le cur
    have hnext := @nextSector_le cur buffer.length
    have hhead : writeBytes content (VirtioBlock.byteOffset cur) buffer p = content p := writeBytes_above (by omega)
    rw [placeAll]
    by_cases haligned : Aligned (buffers.map List.length)
    · have hbuffer : ¬ sectorSize ∣ buffer.length := fun hdvd => hmisaligned ⟨fun _ => hdvd, haligned⟩
      have hle' : nextSector cur buffer.length ≤ cur + buffer.length / sectorSize := Nat.mod_le _ _
      have hlt : nextSector cur buffer.length * sectorSize < cur * sectorSize + buffer.length := by
        unfold sectorSize at *
        omega
      rw [placeAll_unreached hfits.2 (by omega), hhead]
    · rw [ih hfits.2 haligned (by omega), hhead]

theorem placeAll_not_splits {p : Nat} (hfits : Fits cur (buffers.map List.length))
    (h : ¬ Splits cur (buffers.map List.length)) (hp : cur * sectorSize + (buffers.map List.length).sum = p + 1) :
    placeAll cur buffers content p = content p := by
  unfold Splits at h
  rw [not_or, not_and] at h
  by_cases hcur : cur < 2 ^ 55
  · exact placeAll_misaligned hfits (h.2 hcur) (Nat.le_of_eq hp)
  · refine placeAll_unreached hfits (.inl ?_)
    unfold sectorSize at hp
    omega

theorem reachedEnd_le (hfits : Fits cur lens) (hsum : lens.sum ≠ 0) :
    reachedEnd cur lens < 2 ^ 64 ∧ reachedEnd cur lens ≤ cur * sectorSize + lens.sum := by
  induction lens generalizing cur with
  | nil => exact absurd rfl hsum
  | cons len lens ih =>
    have hle := byteOffset_le cur
    have hnext := @nextSector_le cur len
    have hend := hfits.1
    rw [List.sum_cons] at hsum ⊢
    unfold reachedEnd
    split
    · omega
    · rename_i hrest
      have hrest := ih hfits.2 hrest
      omega

theorem reachedEnd_misaligned (hfits : Fits cur lens) (hmisaligned : ¬ Aligned lens) :
    reachedEnd cur lens < cur * sectorSize + lens.sum := by
  induction lens generalizing cur with
  | nil => exact absurd trivial hmisaligned
  | cons len lens ih =>
    have hrest : lens.sum ≠ 0 := fun hzero => hmisaligned ⟨fun hne => absurd hzero hne, aligned_of_sum_zero hzero⟩
    have hnext := @nextSector_le cur len
    rw [reachedEnd, if_neg hrest, List.sum_cons]
    by_cases haligned : Aligned lens
    · have hlen : ¬ sectorSize ∣ len := fun hdvd => hmisaligned ⟨fun _ => hdvd, haligned⟩
      have hle : nextSector cur len ≤ cur + len / sectorSize := Nat.mod_le _ _
      have hlt : nextSector cur len * sectorSize < cur * sectorSize + len := by
        unfold sectorSize at *
        omega
      have hend := (reachedEnd_le hfits.2 hrest).2
      omega
    · have hend := ih hfits.2 haligned
      omega

theorem reachedEnd_not_splits (hfits : Fits cur lens) (h : ¬ Splits cur lens) :
    reachedEnd cur lens ≠ cur * sectorSize + lens.sum := by
  unfold Splits at h
  rw [not_or, not_and] at h
  by_cases hcur : cur < 2 ^ 55
  · exact Nat.ne_of_lt (reachedEnd_misaligned hfits (h.2 hcur))
  · have hend := (reachedEnd_le hfits h.1).1
    unfold sectorSize
    omega

theorem readAll_last (hsum : lens.sum ≠ 0) :
    (readAll cur lens content)[lens.sum - 1]? = some (content (reachedEnd cur lens - 1)) := by
  induction lens generalizing cur with
  | nil => exact absurd rfl hsum
  | cons len lens ih =>
    rw [List.sum_cons] at hsum ⊢
    unfold readAll reachedEnd
    split
    · rename_i hzero
      rw [readAll_empty hzero, List.append_nil, readBytes_getElem? _ _ _ _ (by omega)]
      congr 2
      omega
    · rename_i hrest
      rw [List.getElem?_append_right (by rw [readBytes_length]; omega), readBytes_length, ← ih hrest]
      congr 1
      omega

end Positions

end CloneVmm.Virtio.Block
