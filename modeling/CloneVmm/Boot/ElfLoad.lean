import CloneVmm.Boot.LoadKernel
import CloneVmm.Lib.Prog

/-!
`boot/mod.rs`: `load_elf` with every sum and every index that can stop the program, and which bytes of the file
are in guest memory when it returns.
-/

namespace CloneVmm.Boot.Elf

open CloneVmm.Lib CloneVmm.Vmm

inductive Stop
  | wrapped
  | sliced
  | failed (message : String)
  deriving DecidableEq

def checkedAdd (a b : Nat) : Except Stop Nat := if a + b < 2 ^ 64 then .ok (a + b) else .error .wrapped

def sliceFrom (bytes : List UInt8) (start : Nat) : Except Stop (List UInt8) :=
  if start ≤ bytes.length then .ok (bytes.drop start) else .error .sliced

def sliceOf (bytes : List UInt8) (start n : Nat) : Except Stop (List UInt8) :=
  if start + n ≤ bytes.length then .ok (slice bytes start n) else .error .sliced

def number (bytes : List UInt8) (start n : Nat) : Except Stop Nat := do
  let word ← sliceOf bytes start n
  return leNat word

def entry (data : List UInt8) : Nat := leNat (slice data 24 8)

def phoff (data : List UInt8) : Nat := leNat (slice data 32 8)

def phentsize (data : List UInt8) : Nat := leNat (slice data 54 2)

def phnum (data : List UInt8) : Nat := leNat (slice data 56 2)

def loadHeader (mem : GuestMem) (data : List UInt8) (store : ByteStore) (i : Nat) : Except Stop ByteStore := do
  let start ← checkedAdd (phoff data) (i * phentsize data)
  let ph ← sliceFrom data start
  let pType ← number ph 0 4
  if pType ≠ 1 then return store
  let pOffset ← number ph 8 8
  let pPaddr ← number ph 24 8
  let pFilesz ← number ph 32 8
  if pFilesz = 0 then return store
  let segmentEnd ← checkedAdd pOffset pFilesz
  if data.length < segmentEnd then return store
  let bytes ← sliceOf data pOffset pFilesz
  (writeAt mem store pPaddr bytes).mapError .failed

def Valid (data : List UInt8) : Prop := 64 ≤ data.length ∧ data.take 4 = elfMagic

instance (data : List UInt8) : Decidable (Valid data) := inferInstanceAs (Decidable (_ ∧ _))

def loadHeaders (mem : GuestMem) (data : List UInt8) (store : ByteStore) (n : Nat) : Except Stop ByteStore :=
  (List.range n).foldlM (loadHeader mem data) store

def loadElf (mem : GuestMem) (data : List UInt8) (store : ByteStore) : Except Stop (ByteStore × Nat) := do
  if ¬ Valid data then throw (.failed "Not a valid ELF file")
  let store ← loadHeaders mem data store (phnum data)
  return (store, entry data)

structure Header where
  pType : Nat
  pOffset : Nat
  pPaddr : Nat
  pFilesz : Nat
  deriving DecidableEq

def phStart (data : List UInt8) (i : Nat) : Nat := phoff data + i * phentsize data

def header (data : List UInt8) (i : Nat) : Header :=
  let ph := data.drop (phStart data i)
  ⟨leNat (slice ph 0 4), leNat (slice ph 8 8), leNat (slice ph 24 8), leNat (slice ph 32 8)⟩

namespace Header

def InFile (h : Header) (data : List UInt8) : Prop := h.pOffset + h.pFilesz ≤ data.length

def Wants (h : Header) (gpa : Nat) : Prop := h.pType = 1 ∧ h.pPaddr ≤ gpa ∧ gpa < h.pPaddr + h.pFilesz

def Copied (h : Header) (data : List UInt8) : Prop := h.pType = 1 ∧ 0 < h.pFilesz ∧ h.InFile data

instance (h : Header) (data : List UInt8) : Decidable (h.InFile data) := inferInstanceAs (Decidable (_ ≤ _))

instance (h : Header) (data : List UInt8) : Decidable (h.Copied data) := inferInstanceAs (Decidable (_ ∧ _))

def Lands (h : Header) (mem : GuestMem) (data : List UInt8) : Prop :=
  h.Copied data → ∃ offset, mem.gpaToOffset h.pPaddr = .ok offset ∧ offset + h.pFilesz ≤ mem.size

def CrossesHole (h : Header) (mem : GuestMem) : Prop :=
  mem.holeStart < mem.holeEnd ∧ h.pPaddr < mem.holeStart ∧ mem.holeStart < h.pPaddr + h.pFilesz

end Header

def Readable (data : List UInt8) (i : Nat) : Prop :=
  phStart data i < 2 ^ 64 ∧ phStart data i + 4 ≤ data.length ∧
    ((header data i).pType = 1 → phStart data i + 40 ≤ data.length ∧
      (0 < (header data i).pFilesz → (header data i).pOffset + (header data i).pFilesz < 2 ^ 64))

instance (data : List UInt8) (i : Nat) : Decidable (Readable data i) := inferInstanceAs (Decidable (_ ∧ _))

def Superseded (data : List UInt8) (i gpa : Nat) : Prop := ∃ j, i < j ∧ j < phnum data ∧ (header data j).Wants gpa

def Holds (mem : GuestMem) (data : List UInt8) (store : ByteStore) (h : Header) (k : Nat) : Prop :=
  ∃ offset, mem.gpaToOffset (h.pPaddr + k) = .ok offset ∧ data[h.pOffset + k]? = some (store offset)

structure Loads (mem : GuestMem) (data : List UInt8) : Prop where
  returns : ∀ store stop, loadElf mem data store = .error stop → ∃ message, stop = .failed message
  complete : ∀ store store' start, loadElf mem data store = .ok (store', start) → start = entry data ∧
    ∀ i < phnum data, (header data i).pType = 1 → ∀ k < (header data i).pFilesz,
      ¬ Superseded data i ((header data i).pPaddr + k) →
        (header data i).InFile data ∧ Holds mem data store' (header data i) k

structure Regular (mem : GuestMem) (data : List UInt8) : Prop where
  readable : ∀ i < phnum data, (∀ j < i, Readable data j ∧ (header data j).Lands mem data) → Readable data i
  inFile : (∀ i < phnum data, Readable data i ∧ (header data i).Lands mem data) → ∀ i < phnum data,
    (header data i).pType = 1 → ¬ (header data i).InFile data →
      ∀ k < (header data i).pFilesz, Superseded data i ((header data i).pPaddr + k)
  whole : (∀ i < phnum data, Readable data i ∧ (header data i).Lands mem data) → ∀ i < phnum data,
    (header data i).Copied data → ¬ (header data i).CrossesHole mem

variable {mem : GuestMem} {data : List UInt8} {store store' : ByteStore} {i n : Nat}

theorem checkedAdd_of_lt {a b : Nat} (h : a + b < 2 ^ 64) : checkedAdd a b = .ok (a + b) := if_pos h

theorem number_of_le {bytes : List UInt8} {start n : Nat} (h : start + n ≤ bytes.length) :
    number bytes start n = .ok (leNat (slice bytes start n)) := by
  rw [number, sliceOf, if_pos h]
  rfl

theorem number_of_lt {bytes : List UInt8} {start n : Nat} (h : bytes.length < start + n) :
    number bytes start n = .error .sliced := by
  rw [number, sliceOf, if_neg (by omega)]
  rfl

theorem writeAt_ok_iff {gpa : Nat} {bytes : List UInt8} :
    writeAt mem store gpa bytes = .ok store' ↔ ∃ offset, mem.gpaToOffset gpa = .ok offset ∧
      offset + bytes.length ≤ mem.size ∧ store' = writeBytes store offset bytes := by
  rw [writeAt, exceptBind_eq_ok]
  apply exists_congr
  intro offset
  apply and_congr_right'
  by_cases h : offset + bytes.length > mem.size
  · rw [if_pos h]
    constructor
    · intro hthrow
      cases hthrow
    · rintro ⟨hle, -⟩
      omega
  · rw [if_neg h]
    constructor
    · intro hok
      cases hok
      exact ⟨Nat.not_lt.mp h, rfl⟩
    · rintro ⟨-, rfl⟩
      rfl

def Stops {α : Type} (x : Except Stop α) : Prop := x = .error .wrapped ∨ x = .error .sliced

section Reads

variable {α β : Type} {bytes : List UInt8} {start : Nat} {x : Except Stop α} {f : α → Except Stop β}

theorem stops_bind (h : Stops x) : Stops (x >>= f) := by
  rcases h with rfl | rfl
  · exact .inl rfl
  · exact .inr rfl

theorem checkedAdd_bind {a b : Nat} {f : Nat → Except Stop β} (h : ¬ Stops (checkedAdd a b >>= f)) :
    a + b < 2 ^ 64 ∧ ¬ Stops (f (a + b)) := by
  by_cases hsum : a + b < 2 ^ 64
  · rw [checkedAdd_of_lt hsum] at h
    exact ⟨hsum, h⟩
  · exact absurd (stops_bind (.inl (if_neg hsum))) h

theorem sliceFrom_bind {f : List UInt8 → Except Stop β} (h : ¬ Stops (sliceFrom bytes start >>= f)) :
    start ≤ bytes.length ∧ ¬ Stops (f (bytes.drop start)) := by
  by_cases hstart : start ≤ bytes.length
  · rw [sliceFrom, if_pos hstart] at h
    exact ⟨hstart, h⟩
  · exact absurd (stops_bind (.inr (if_neg hstart))) h

theorem number_bind {f : Nat → Except Stop β} (h : ¬ Stops (number bytes start n >>= f)) :
    start + n ≤ bytes.length ∧ ¬ Stops (f (leNat (slice bytes start n))) := by
  rcases Nat.lt_or_ge bytes.length (start + n) with hend | hend
  · exact absurd (stops_bind (.inr (number_of_lt hend))) h
  · rw [number_of_le hend] at h
    exact ⟨hend, h⟩

end Reads

def segmentWrite (mem : GuestMem) (data : List UInt8) (store : ByteStore) (h : Header) : Except Stop ByteStore :=
  if h.Copied data then (writeAt mem store h.pPaddr (slice data h.pOffset h.pFilesz)).mapError .failed else .ok store

theorem slice_drop_length {start k : Nat} (h : start + k ≤ data.length) : k ≤ (data.drop start).length := by
  rw [List.length_drop]
  omega

theorem loadHeader_of_readable (h : Readable data i) (store : ByteStore) :
    loadHeader mem data store i = segmentWrite mem data store (header data i) := by
  obtain ⟨hstart, htype, hload⟩ := h
  have hfrom : sliceFrom data (phStart data i) = .ok (data.drop (phStart data i)) := if_pos (by omega)
  rw [loadHeader, checkedAdd_of_lt hstart, segmentWrite]
  change (sliceFrom data (phStart data i) >>= _) = _
  rw [hfrom]
  change (number (data.drop (phStart data i)) 0 4 >>= _) = _
  rw [number_of_le (slice_drop_length htype)]
  change (if (header data i).pType ≠ 1 then _ else _) = _
  by_cases hone : (header data i).pType = 1
  · obtain ⟨hbody, hsum⟩ := hload hone
    have hlen : 40 ≤ (data.drop (phStart data i)).length := slice_drop_length hbody
    rw [if_neg (not_not.mpr hone)]
    change (number (data.drop (phStart data i)) 8 8 >>= _) = _
    rw [number_of_le (by omega)]
    change (number (data.drop (phStart data i)) 24 8 >>= _) = _
    rw [number_of_le (by omega)]
    change (number (data.drop (phStart data i)) 32 8 >>= _) = _
    rw [number_of_le (by omega)]
    change (if (header data i).pFilesz = 0 then _ else _) = _
    by_cases hempty : (header data i).pFilesz = 0
    · rw [if_pos hempty, if_neg (fun hcopied => absurd hempty hcopied.2.1.ne')]
      rfl
    · rw [if_neg hempty]
      change (checkedAdd (header data i).pOffset (header data i).pFilesz >>= _) = _
      rw [checkedAdd_of_lt (hsum (Nat.pos_of_ne_zero hempty))]
      change (if data.length < (header data i).pOffset + (header data i).pFilesz then _ else _) = _
      by_cases hfile : data.length < (header data i).pOffset + (header data i).pFilesz
      · rw [if_pos hfile, if_neg (fun hcopied => absurd hfile (Nat.not_lt.mpr hcopied.2.2))]
        rfl
      · rw [if_neg hfile, if_pos ⟨hone, Nat.pos_of_ne_zero hempty, Nat.not_lt.mp hfile⟩]
        change (sliceOf data (header data i).pOffset (header data i).pFilesz >>= _) = _
        rw [sliceOf, if_pos (Nat.not_lt.mp hfile)]
        rfl
  · rw [if_pos hone, if_neg (fun hcopied => hone hcopied.1)]
    rfl

theorem readable_of_not_stops (h : ¬ Stops (loadHeader mem data store i)) : Readable data i := by
  obtain ⟨hstart, h⟩ := checkedAdd_bind h
  obtain ⟨-, h⟩ := sliceFrom_bind h
  obtain ⟨htype, h⟩ := number_bind h
  rw [List.length_drop] at htype
  refine ⟨hstart, by unfold phStart; omega, fun hone => ?_⟩
  change (header data i).pType = 1 at hone
  change ¬ Stops (if (header data i).pType ≠ 1 then _ else _) at h
  rw [if_neg (not_not.mpr hone)] at h
  obtain ⟨-, h⟩ := number_bind h
  obtain ⟨-, h⟩ := number_bind h
  obtain ⟨hbody, h⟩ := number_bind h
  rw [List.length_drop] at hbody
  refine ⟨by unfold phStart; omega, fun hfilesz => ?_⟩
  change ¬ Stops (if (header data i).pFilesz = 0 then _ else _) at h
  rw [if_neg hfilesz.ne'] at h
  exact (checkedAdd_bind h).1

section Segment

variable {h : Header}

theorem segmentWrite_ok_iff : segmentWrite mem data store h = .ok store' ↔
    (h.Copied data → ∃ offset, mem.gpaToOffset h.pPaddr = .ok offset ∧ offset + h.pFilesz ≤ mem.size ∧
      store' = writeBytes store offset (slice data h.pOffset h.pFilesz)) ∧ (¬ h.Copied data → store' = store) := by
  rw [segmentWrite]
  by_cases hcopied : h.Copied data
  · rw [if_pos hcopied]
    have hwrite : writeAt mem store h.pPaddr (slice data h.pOffset h.pFilesz) = .ok store' ↔
        ∃ offset, mem.gpaToOffset h.pPaddr = .ok offset ∧ offset + h.pFilesz ≤ mem.size ∧
          store' = writeBytes store offset (slice data h.pOffset h.pFilesz) := by
      rw [writeAt_ok_iff, slice_length hcopied.2.2]
    constructor
    · intro hmap
      refine ⟨fun _ => hwrite.mp ?_, fun hnot => absurd hcopied hnot⟩
      cases hresult : writeAt mem store h.pPaddr (slice data h.pOffset h.pFilesz) with
      | error message =>
        rw [hresult] at hmap
        cases hmap
      | ok written =>
        rw [hresult] at hmap
        cases hmap
        rfl
    · rintro ⟨hok, -⟩
      rw [hwrite.mpr (hok hcopied)]
      rfl
  · rw [if_neg hcopied]
    constructor
    · intro hok
      cases hok
      exact ⟨fun hyes => absurd hyes hcopied, fun _ => rfl⟩
    · rintro ⟨-, hsame⟩
      rw [hsame hcopied]

theorem not_stops_segmentWrite : ¬ Stops (segmentWrite mem data store h) := by
  rw [segmentWrite]
  split
  · cases writeAt mem store h.pPaddr (slice data h.pOffset h.pFilesz) with
    | error message => simp [Stops, Except.mapError]
    | ok written => simp [Stops, Except.mapError]
  · simp [Stops]

theorem segmentWrite_of_lands (hlands : h.Lands mem data) (store : ByteStore) :
    ∃ store', segmentWrite mem data store h = .ok store' := by
  by_cases hcopied : h.Copied data
  · obtain ⟨offset, hoffset, hsize⟩ := hlands hcopied
    exact ⟨_, segmentWrite_ok_iff.mpr ⟨fun _ => ⟨offset, hoffset, hsize, rfl⟩, fun hnot => absurd hcopied hnot⟩⟩
  · exact ⟨store, segmentWrite_ok_iff.mpr ⟨fun hyes => absurd hyes hcopied, fun _ => rfl⟩⟩

theorem lands_of_segmentWrite (hok : segmentWrite mem data store h = .ok store') : h.Lands mem data := by
  intro hcopied
  obtain ⟨offset, hoffset, hsize, -⟩ := (segmentWrite_ok_iff.mp hok).1 hcopied
  exact ⟨offset, hoffset, hsize⟩

end Segment

theorem stops_loadHeader_iff : Stops (loadHeader mem data store i) ↔ ¬ Readable data i := by
  constructor
  · intro hstops hreadable
    rw [loadHeader_of_readable hreadable] at hstops
    exact not_stops_segmentWrite hstops
  · intro hnot
    by_contra hstops
    exact hnot (readable_of_not_stops hstops)

theorem loadHeader_ok_iff : loadHeader mem data store i = .ok store' ↔
    Readable data i ∧ segmentWrite mem data store (header data i) = .ok store' := by
  constructor
  · intro hok
    have hreadable : Readable data i := by
      apply readable_of_not_stops
      rw [hok]
      simp [Stops]
    exact ⟨hreadable, by rw [← loadHeader_of_readable hreadable, hok]⟩
  · rintro ⟨hreadable, hok⟩
    rw [loadHeader_of_readable hreadable, hok]

theorem loadHeaders_succ (mem : GuestMem) (data : List UInt8) (store : ByteStore) (n : Nat) :
    loadHeaders mem data store (n + 1) = loadHeaders mem data store n >>= fun store => loadHeader mem data store n := by
  rw [loadHeaders, List.range_succ, List.foldlM_append]
  simp only [List.foldlM_cons, List.foldlM_nil, bind_pure]
  rfl

theorem loadHeaders_of_lands (h : ∀ j < n, Readable data j ∧ (header data j).Lands mem data) (store : ByteStore) :
    ∃ store', loadHeaders mem data store n = .ok store' := by
  induction n with
  | zero => exact ⟨store, rfl⟩
  | succ n ih =>
    obtain ⟨store₁, hfirst⟩ := ih fun j hj => h j (by omega)
    obtain ⟨hreadable, hlands⟩ := h n (by omega)
    obtain ⟨store', hlast⟩ := segmentWrite_of_lands hlands store₁
    refine ⟨store', ?_⟩
    rw [loadHeaders_succ, hfirst]
    exact loadHeader_ok_iff.mpr ⟨hreadable, hlast⟩

theorem lands_of_loadHeaders (h : loadHeaders mem data store n = .ok store') :
    ∀ j < n, Readable data j ∧ (header data j).Lands mem data := by
  induction n generalizing store' with
  | zero => exact fun j hj => absurd hj (Nat.not_lt_zero j)
  | succ n ih =>
    rw [loadHeaders_succ] at h
    obtain ⟨store₁, hfirst, hlast⟩ := exceptBind_eq_ok.mp h
    obtain ⟨hreadable, hwrite⟩ := loadHeader_ok_iff.mp hlast
    intro j hj
    rcases Nat.lt_succ_iff_lt_or_eq.mp hj with hlt | rfl
    · exact ih hfirst j hlt
    · exact ⟨hreadable, lands_of_segmentWrite hwrite⟩

theorem not_stops_loadHeaders
    (h : ∀ i < n, (∀ j < i, Readable data j ∧ (header data j).Lands mem data) → Readable data i) (store : ByteStore) :
    ¬ Stops (loadHeaders mem data store n) := by
  induction n with
  | zero => simp [loadHeaders, Stops, pure, Except.pure]
  | succ n ih =>
    rw [loadHeaders_succ]
    cases hfirst : loadHeaders mem data store n with
    | error stop =>
      have hprev := ih fun i hi => h i (by omega)
      rw [hfirst] at hprev
      exact hprev
    | ok store₁ =>
      exact fun hstops => stops_loadHeader_iff.mp hstops (h n (by omega) (lands_of_loadHeaders hfirst))

theorem stops_loadHeaders_mono {m : Nat} (hle : n ≤ m) (h : Stops (loadHeaders mem data store n)) :
    Stops (loadHeaders mem data store m) := by
  induction m, hle using Nat.le_induction with
  | base => exact h
  | succ m _ ih =>
    rw [loadHeaders_succ]
    exact stops_bind ih

theorem gpaToOffset_add {gpa offset len k : Nat} (hhole : mem.holeStart ≤ mem.holeEnd)
    (h : mem.gpaToOffset gpa = .ok offset) (hsize : offset + len ≤ mem.size)
    (hwhole : ¬ (mem.holeStart < mem.holeEnd ∧ gpa < mem.holeStart ∧ mem.holeStart < gpa + len)) (hk : k < len) :
    mem.gpaToOffset (gpa + k) = .ok (offset + k) := by
  rw [gpaToOffset_ok_iff] at h ⊢
  rcases h with h | h | h
  · left
    omega
  · by_cases hbelow : gpa + k < mem.holeStart
    · right
      left
      omega
    · right
      right
      omega
  · right
    right
    omega

theorem gpaToOffset_inj {gpa gpa' offset : Nat} (h : mem.gpaToOffset gpa = .ok offset)
    (h' : mem.gpaToOffset gpa' = .ok offset) : gpa = gpa' := by
  rw [gpaToOffset_ok_iff] at h h'
  omega

section Bytes

variable {h : Header} {k : Nat}

theorem segmentWrite_holds (hhole : mem.holeStart ≤ mem.holeEnd) (hok : segmentWrite mem data store h = .ok store')
    (hcopied : h.Copied data) (hwhole : ¬ h.CrossesHole mem) (hk : k < h.pFilesz) : Holds mem data store' h k := by
  obtain ⟨offset, hoffset, hsize, rfl⟩ := (segmentWrite_ok_iff.mp hok).1 hcopied
  refine ⟨offset + k, gpaToOffset_add hhole hoffset hsize hwhole hk, ?_⟩
  have hlen : k < (slice data h.pOffset h.pFilesz).length := by rwa [slice_length hcopied.2.2]
  rw [writeBytes_inside hlen]
  simp only [slice, List.getElem_take, List.getElem_drop]
  have hfile : h.pOffset + h.pFilesz ≤ data.length := hcopied.2.2
  exact List.getElem?_eq_getElem (by omega)

theorem segmentWrite_other {gpa o : Nat} (hhole : mem.holeStart ≤ mem.holeEnd)
    (hok : segmentWrite mem data store h = .ok store') (hwhole : h.Copied data → ¬ h.CrossesHole mem)
    (ho : mem.gpaToOffset gpa = .ok o) (hwants : ¬ h.Wants gpa) : store' o = store o := by
  obtain ⟨hwrite, hsame⟩ := segmentWrite_ok_iff.mp hok
  by_cases hcopied : h.Copied data
  · obtain ⟨offset, hoffset, hsize, rfl⟩ := hwrite hcopied
    apply writeBytes_outside
    rw [slice_length hcopied.2.2]
    by_contra hinside
    have ho' := gpaToOffset_add hhole hoffset hsize (hwhole hcopied) (show o - offset < h.pFilesz by omega)
    rw [show offset + (o - offset) = o by omega] at ho'
    have hgpa := gpaToOffset_inj ho ho'
    exact hwants ⟨hcopied.1, by omega, by omega⟩
  · rw [hsame hcopied]

end Bytes

def Held (mem : GuestMem) (data : List UInt8) (n : Nat) (store : ByteStore) : Prop :=
  ∀ i < n, (header data i).Copied data → ∀ k < (header data i).pFilesz,
    (∀ j, i < j → j < n → ¬ (header data j).Wants ((header data i).pPaddr + k)) → Holds mem data store (header data i) k

theorem held_succ (hhole : mem.holeStart ≤ mem.holeEnd)
    (hwhole : ∀ i < n + 1, (header data i).Copied data → ¬ (header data i).CrossesHole mem)
    (hheld : Held mem data n store) (hok : segmentWrite mem data store (header data n) = .ok store') :
    Held mem data (n + 1) store' := by
  intro i hi hcopied k hk hlast
  rcases Nat.lt_succ_iff_lt_or_eq.mp hi with hlt | rfl
  · obtain ⟨o, ho, hbyte⟩ := hheld i hlt hcopied k hk fun j hij hj => hlast j hij (by omega)
    refine ⟨o, ho, ?_⟩
    rw [segmentWrite_other hhole hok (hwhole n (by omega)) ho (hlast n hlt (by omega))]
    exact hbyte
  · exact segmentWrite_holds hhole hok hcopied (hwhole i hi hcopied) hk

theorem held_loadHeaders (hhole : mem.holeStart ≤ mem.holeEnd)
    (hwhole : ∀ i < n, (header data i).Copied data → ¬ (header data i).CrossesHole mem)
    (hok : loadHeaders mem data store n = .ok store') : Held mem data n store' := by
  induction n generalizing store' with
  | zero => exact fun i hi => absurd hi (Nat.not_lt_zero i)
  | succ n ih =>
    rw [loadHeaders_succ] at hok
    obtain ⟨store₁, hfirst, hlast⟩ := exceptBind_eq_ok.mp hok
    exact held_succ hhole hwhole (ih (fun i hi => hwhole i (by omega)) hfirst) (loadHeader_ok_iff.mp hlast).2

theorem loadElf_of_valid (h : Valid data) (store : ByteStore) : loadElf mem data store =
    loadHeaders mem data store (phnum data) >>= fun store => .ok (store, entry data) := by
  rw [loadElf, if_neg (not_not.mpr h)]
  rfl

theorem loadElf_of_not_valid (h : ¬ Valid data) (store : ByteStore) :
    loadElf mem data store = .error (.failed "Not a valid ELF file") := by
  rw [loadElf, if_pos h]
  rfl

theorem failed_of_not_stops {α : Type} {x : Except Stop α} {stop : Stop} (h : ¬ Stops x) (hx : x = .error stop) :
    ∃ message, stop = .failed message := by
  subst hx
  cases stop with
  | wrapped => exact absurd (.inl rfl) h
  | sliced => exact absurd (.inr rfl) h
  | failed message => exact ⟨message, rfl⟩

theorem stops_loadElf_iff (h : Valid data) :
    Stops (loadElf mem data store) ↔ Stops (loadHeaders mem data store (phnum data)) := by
  rw [loadElf_of_valid h]
  cases loadHeaders mem data store (phnum data) with
  | error stop => simp [Stops, bind, Except.bind]
  | ok store' => simp [Stops, bind, Except.bind]

theorem loadElf_ok_iff {start : Nat} (h : Valid data) : loadElf mem data store = .ok (store', start) ↔
    loadHeaders mem data store (phnum data) = .ok store' ∧ start = entry data := by
  rw [loadElf_of_valid h, exceptBind_eq_ok]
  constructor
  · rintro ⟨store₁, hheaders, hpair⟩
    cases hpair
    exact ⟨hheaders, rfl⟩
  · rintro ⟨hheaders, rfl⟩
    exact ⟨store', hheaders, rfl⟩

def segmentAction (data : List UInt8) (i : Nat) : Option Action :=
  loadSegment data ((phoff data + i * phentsize data) % 2 ^ 64)

theorem segmentAction_of_readable (h : Readable data i) : segmentAction data i =
    if (header data i).Copied data then some (put (header data i).pPaddr (slice data (header data i).pOffset
      (header data i).pFilesz)) else none := by
  obtain ⟨hstart, htype, hload⟩ := h
  have hlen : (data.drop (phStart data i)).length = data.length - phStart data i := List.length_drop
  have hfour : (data.drop (phStart data i)).take 4 = slice (data.drop (phStart data i)) 0 4 := by simp [slice]
  have haction : segmentAction data i = loadSegment data (phStart data i) :=
    congrArg (loadSegment data) (Nat.mod_eq_of_lt hstart)
  rw [haction, loadSegment]
  dsimp only
  rw [if_neg (by omega), hfour]
  change (if (header data i).pType ≠ 1 then _ else _) = _
  by_cases hone : (header data i).pType = 1
  · obtain ⟨hbody, hsum⟩ := hload hone
    rw [if_neg (not_not.mpr hone), if_neg (by omega)]
    change (if 0 < (header data i).pFilesz ∧
      ((header data i).pOffset + (header data i).pFilesz) % 2 ^ 64 ≤ data.length then _ else _) = _
    by_cases hcopied : (header data i).Copied data
    · obtain ⟨-, hpos, hfile⟩ := hcopied
      have hmod := Nat.mod_eq_of_lt (hsum hpos)
      rw [if_pos (c := (header data i).Copied data) ⟨hone, hpos, hfile⟩, hmod, if_pos ⟨hpos, hfile⟩]
      exact if_neg (Nat.not_lt.mpr ((Nat.le_add_right _ _).trans_eq hmod.symm))
    · rw [if_neg hcopied, if_neg]
      rintro ⟨hpos, hfile⟩
      rw [Nat.mod_eq_of_lt (hsum hpos)] at hfile
      exact hcopied ⟨hone, hpos, hfile⟩
  · rw [if_pos hone, if_neg fun hcopied => hone hcopied.1]

theorem perform_of_segmentWrite (h : segmentWrite mem data store (header data i) = .ok store')
    (hcopied : (header data i).Copied data) : perform mem store (put (header data i).pPaddr
      (slice data (header data i).pOffset (header data i).pFilesz)) = .ok store' := by
  obtain ⟨offset, hoffset, hsize, hwritten⟩ := (segmentWrite_ok_iff.mp h).1 hcopied
  refine writeAt_ok_iff.mpr ⟨offset, hoffset, ?_, hwritten⟩
  rwa [slice_length hcopied.2.2]

theorem performAll_of_loadHeaders (h : loadHeaders mem data store n = .ok store') :
    performAll mem store (owned .kernel ((List.range n).filterMap (segmentAction data))) = .ok store' := by
  induction n generalizing store' with
  | zero =>
    cases h
    rfl
  | succ n ih =>
    rw [loadHeaders_succ] at h
    obtain ⟨store₁, hfirst, hlast⟩ := exceptBind_eq_ok.mp h
    obtain ⟨hreadable, hwrite⟩ := loadHeader_ok_iff.mp hlast
    have hsegment := segmentAction_of_readable hreadable
    rw [List.range_succ, List.filterMap_append, owned, List.map_append, performAll, List.foldlM_append]
    refine exceptBind_eq_ok.mpr ⟨store₁, ih hfirst, ?_⟩
    by_cases hcopied : (header data n).Copied data
    · rw [if_pos hcopied] at hsegment
      rw [List.filterMap_cons_some hsegment]
      refine exceptBind_eq_ok.mpr ⟨store', perform_of_segmentWrite hwrite hcopied, rfl⟩
    · rw [if_neg hcopied] at hsegment
      rw [List.filterMap_cons_none hsegment, (segmentWrite_ok_iff.mp hwrite).2 hcopied]
      rfl

theorem performAll_of_loadElf {start : Nat} (h : loadElf mem data store = .ok (store', start)) :
    performAll mem store (Boot.loadElf data).1 = .ok store' ∧ (Boot.loadElf data).2 = start := by
  by_cases hvalid : Valid data
  · obtain ⟨hheaders, rfl⟩ := (loadElf_ok_iff hvalid).mp h
    have hfile : ¬ (data.length < 64 ∨ data.take 4 ≠ elfMagic) := by
      rintro (hshort | hmagic)
      · exact absurd hshort (Nat.not_lt.mpr hvalid.1)
      · exact hmagic hvalid.2
    rw [Boot.loadElf, if_neg hfile]
    exact ⟨performAll_of_loadHeaders hheaders, rfl⟩
  · rw [loadElf_of_not_valid hvalid] at h
    cases h

theorem Loads.not_stops (h : Loads mem data) (store : ByteStore) : ¬ Stops (loadElf mem data store) := by
  rintro (hstop | hstop)
  all_goals
    obtain ⟨message, heq⟩ := h.returns _ _ hstop
    cases heq

theorem Loads.readable (h : Loads mem data) (hvalid : Valid data) (hi : i < phnum data)
    (hbefore : ∀ j < i, Readable data j ∧ (header data j).Lands mem data) : Readable data i := by
  by_contra hnot
  obtain ⟨store, hfirst⟩ := loadHeaders_of_lands hbefore fun _ => 0
  have hstops : Stops (loadHeaders mem data (fun _ => 0) (i + 1)) := by
    rw [loadHeaders_succ, hfirst]
    exact stops_loadHeader_iff.mpr hnot
  exact h.not_stops _ ((stops_loadElf_iff hvalid).mpr (stops_loadHeaders_mono hi hstops))

theorem Loads.not_wants_hole (h : Loads mem data) (hvalid : Valid data) (hhole : mem.holeStart < mem.holeEnd)
    (hpos : 0 < mem.holeStart) (hall : ∀ i < phnum data, Readable data i ∧ (header data i).Lands mem data)
    (hi : i < phnum data) : ¬ (header data i).Wants mem.holeStart := by
  obtain ⟨store, hok⟩ := loadHeaders_of_lands hall fun _ => 0
  obtain ⟨-, hcomplete⟩ := h.complete _ _ _ ((loadElf_ok_iff hvalid).mpr ⟨hok, rfl⟩)
  induction hd : phnum data - i using Nat.strong_induction_on generalizing i with
  | h d ih =>
    rintro ⟨hone, hlow, hhigh⟩
    obtain ⟨k, hk⟩ := Nat.exists_eq_add_of_le hlow
    by_cases hlater : Superseded data i ((header data i).pPaddr + k)
    · -- A later header has the same trouble.
      obtain ⟨j, hij, hj, hwants⟩ := hlater
      rw [← hk] at hwants
      exact ih (phnum data - j) (by omega) hj rfl hwants
    · obtain ⟨-, offset, hoffset, -⟩ := hcomplete i hi hone k (by omega) hlater
      rw [← hk, gpaToOffset_ok_iff] at hoffset
      omega

theorem Loads.regular (h : Loads mem data) (hvalid : Valid data) : Regular mem data where
  readable := fun i hi hbefore => h.readable hvalid hi hbefore
  inFile := by
    intro hall i hi hone hnot k hk
    by_contra hlater
    obtain ⟨store, hok⟩ := loadHeaders_of_lands hall fun _ => 0
    obtain ⟨-, hcomplete⟩ := h.complete _ _ _ ((loadElf_ok_iff hvalid).mpr ⟨hok, rfl⟩)
    exact hnot (hcomplete i hi hone k hk hlater).1
  whole := by
    rintro hall i hi ⟨hone, -, -⟩ ⟨hhole, hlow, hhigh⟩
    exact h.not_wants_hole hvalid hhole (by omega) hall hi ⟨hone, hlow.le, hhigh⟩

theorem loads_of_regular (hhole : mem.holeStart ≤ mem.holeEnd) (hvalid : Valid data) (h : Regular mem data) :
    Loads mem data where
  returns := by
    intro store stop hstop
    refine failed_of_not_stops (fun hstops => ?_) hstop
    exact not_stops_loadHeaders h.readable store ((stops_loadElf_iff hvalid).mp hstops)
  complete := by
    intro store store' start hok
    obtain ⟨hheaders, rfl⟩ := (loadElf_ok_iff hvalid).mp hok
    have hall := lands_of_loadHeaders hheaders
    refine ⟨rfl, fun i hi hone k hk hlast => ?_⟩
    have hfile : (header data i).InFile data := by
      by_contra hnot
      exact hlast (h.inFile hall i hi hone hnot k hk)
    refine ⟨hfile, held_loadHeaders hhole (h.whole hall) hheaders i hi ⟨hone, by omega, hfile⟩ k hk ?_⟩
    exact fun j hij hj hwants => hlast ⟨j, hij, hj, hwants⟩

theorem loads_of_not_valid (h : ¬ Valid data) : Loads mem data where
  returns := by
    intro store stop hstop
    rw [loadElf_of_not_valid h] at hstop
    cases hstop
    exact ⟨_, rfl⟩
  complete := by
    intro store store' start hok
    rw [loadElf_of_not_valid h] at hok
    cases hok

theorem loads_iff (mem : GuestMem) (data : List UInt8) (hhole : mem.holeStart ≤ mem.holeEnd) :
    Loads mem data ↔ (Valid data → Regular mem data) := by
  constructor
  · exact fun h hvalid => h.regular hvalid
  · intro h
    by_cases hvalid : Valid data
    · exact loads_of_regular hhole hvalid (h hvalid)
    · exact loads_of_not_valid hvalid

def elfFile (pOffset pPaddr pFilesz : Nat) : List UInt8 :=
  elfMagic ++ List.replicate 20 0 ++ leBytes 8 pPaddr ++ leBytes 8 64 ++ List.replicate 14 0 ++ leBytes 2 56
    ++ leBytes 2 1 ++ List.replicate 6 0 ++ leBytes 4 1 ++ List.replicate 4 0 ++ leBytes 8 pOffset
    ++ List.replicate 8 0 ++ leBytes 8 pPaddr ++ leBytes 8 pFilesz ++ List.replicate 16 0 ++ [1, 2, 3]

theorem loads_three_bytes : (0 : Nat) ≤ 0 ∧ Loads (.fromRaw 0x1000) (elfFile 120 0x10 3) := by
  have hnum : phnum (elfFile 120 0x10 3) = 1 := by decide
  refine ⟨Nat.le_refl _, (loads_iff (.fromRaw 0x1000) _ (Nat.le_refl _)).mpr fun _ => ⟨?_, ?_, ?_⟩⟩
  · intro i hi _
    obtain rfl : i = 0 := by omega
    decide +kernel
  · intro _ i hi _ hnot
    obtain rfl : i = 0 := by omega
    exact absurd (by decide +kernel) hnot
  · rintro _ i hi _ ⟨-, hlow, -⟩
    exact absurd hlow (Nat.not_lt_zero _)

theorem loads_fails : ¬ Loads (.fromRaw 0x1000) ((elfFile 120 0x10 3).take 64) ∧
    ¬ Loads (.fromRaw 0x1000) (elfFile 120 0x10 4) ∧ ¬ Loads (bootGuestMem 0x100000000) (elfFile 120 0xBFFFFFFF 3) := by
  refine ⟨fun h => ?_, fun h => ?_, fun h => ?_⟩
  · obtain ⟨message, heq⟩ := h.returns (fun _ => 0) .sliced (by rfl)
    cases heq
  · have hnum : phnum (elfFile 120 0x10 4) = 1 := by decide
    have hout : ¬ (header (elfFile 120 0x10 4) 0).InFile (elfFile 120 0x10 4) := by decide +kernel
    have hsuperseded := (h.regular (by decide +kernel)).inFile (fun i hi => by
      obtain rfl : i = 0 := by omega
      exact ⟨by decide +kernel, fun hcopied => absurd hcopied.2.2 hout⟩) 0 (by omega) (by decide +kernel) hout 0
      (by decide)
    obtain ⟨j, hpos, hj, -⟩ := hsuperseded
    omega
  · have hnum : phnum (elfFile 120 0xBFFFFFFF 3) = 1 := by decide
    have hcrosses : (header (elfFile 120 0xBFFFFFFF 3) 0).CrossesHole (bootGuestMem 0x100000000) := by
      unfold Header.CrossesHole
      decide
    exact (h.regular (by decide +kernel)).whole (fun i hi => by
      obtain rfl : i = 0 := by omega
      refine ⟨by decide +kernel, fun _ => ⟨0xBFFFFFFF, ?_, by decide +kernel⟩⟩
      exact (gpaToOffset_ok_iff _ _ _).mpr (by decide +kernel)) 0 (by omega) (by decide +kernel) hcrosses

end CloneVmm.Boot.Elf
