import CloneVmm.Lib.Bytes
import CloneVmm.Lib.Newc

/-!
`rootfs.rs`: the cpio archive that `generate_initrd` writes entry by entry, read back as newc.
-/

namespace CloneVmm.Boot.Initrd

open CloneVmm.Lib Newc

def stripSlash (name : List UInt8) : List UInt8 :=
  match name with
  | 47 :: rest => rest
  | _ => name

def isDir (mode : UInt32) : Bool := mode &&& 0o170000 == 0o040000

def isDev (mode : UInt32) : Bool := mode &&& 0o170000 == 0o020000 || mode &&& 0o170000 == 0o060000

def pad4 (buf : List UInt8) : List UInt8 := buf ++ List.replicate ((4 - buf.length % 4) % 4) 0

def zeros8 : List UInt8 := List.replicate 8 48

/-- `ino` is what the counter of the process gives, which other threads use too. Names are UTF-8. -/
def cpioWriteEntry (ino : UInt32) (buf name : List UInt8) (mode : UInt32) (data : List UInt8) : List UInt8 :=
  let name := stripSlash name
  let namesize := name.length + 1
  let nlink := if isDir mode then 2 else 1
  let filesize := if isDir mode || isDev mode then 0 else data.length
  let rdev :=
    if isDev mode && decide (8 ≤ data.length) then (leNat (data.take 4), leNat ((data.drop 4).take 4)) else (0, 0)
  let buf := buf ++ (magic ++ hex8 ino.toNat ++ hex8 mode.toNat ++ zeros8 ++ zeros8 ++ hex8 nlink ++ zeros8
    ++ hex8 filesize ++ zeros8 ++ zeros8 ++ hex8 rdev.1 ++ hex8 rdev.2 ++ hex8 namesize ++ zeros8)
  let buf := pad4 (buf ++ name ++ [0])
  if filesize > 0 then pad4 (buf ++ data) else buf

def cpioWriteTrailer (ino : UInt32) (buf : List UInt8) : List UInt8 := cpioWriteEntry ino buf trailerName 0 []

structure Entry where
  name : List UInt8
  mode : UInt32
  data : List UInt8

def archive (entries : List (UInt32 × Entry)) (trailerIno : UInt32) : List UInt8 :=
  cpioWriteTrailer trailerIno
    (entries.foldl (fun buf (ino, e) => cpioWriteEntry ino buf e.name e.mode e.data) [])

def Entry.path (e : Entry) : List UInt8 := stripSlash e.name

structure Entry.Writable (e : Entry) : Prop where
  nonempty : e.path ≠ []
  nul : 0 ∉ e.path
  notTrailer : e.path ≠ trailerName
  nameSize : e.name.length < 2 ^ 32
  dataSize : e.data.length < 2 ^ 32
  device : isDev e.mode = true → e.data.length = 8
  directory : isDir e.mode = true → e.data = []

def Entry.unpacked (e : Entry) : Newc.Entry where
  name := e.path
  mode := e.mode.toNat
  rdevmajor := if isDev e.mode then leNat (e.data.take 4) else 0
  rdevminor := if isDev e.mode then leNat (e.data.drop 4) else 0
  data := if isDev e.mode then [] else e.data

structure ReadsBack (entries : List (UInt32 × Entry)) (trailerIno : UInt32) (found : List (Nat × Newc.Entry))
    (trailer : Nat) : Prop where
  read : readArchive (archive entries trailerIno) 0 = some (found, trailer)
  entries : found.map Prod.snd = entries.map fun e => e.2.unpacked
  aligned : ∀ p ∈ found, p.1 % 4 = 0
  trailer : trailer % 4 = 0

def Entry.header (ino : UInt32) (e : Entry) : Header where
  ino := ino.toNat
  mode := e.mode.toNat
  uid := 0
  gid := 0
  nlink := if isDir e.mode then 2 else 1
  mtime := 0
  filesize := e.unpacked.data.length
  devmajor := 0
  devminor := 0
  rdevmajor := e.unpacked.rdevmajor
  rdevminor := e.unpacked.rdevminor
  namesize := e.path.length + 1
  check := 0

structure Entry.Encodable (e : Entry) : Prop where
  pathSize : e.path.length + 1 < 2 ^ 32
  dataSize : e.data.length < 2 ^ 32
  device : isDev e.mode = true → e.data.length = 8
  directory : isDir e.mode = true → e.data = []

variable {e : Entry}

theorem Entry.Encodable.filesize (h : e.Encodable) :
    (if isDir e.mode || isDev e.mode then 0 else e.data.length) = e.unpacked.data.length := by
  simp only [Entry.unpacked]
  cases hdev : isDev e.mode with
  | true =>
    rw [Bool.or_true]
    rfl
  | false =>
    rw [Bool.or_false]
    cases hdir : isDir e.mode with
    | true =>
      rw [h.directory hdir]
      rfl
    | false => rfl

theorem Entry.Encodable.rdev (h : e.Encodable) :
    (if isDev e.mode && decide (8 ≤ e.data.length) then (leNat (e.data.take 4), leNat ((e.data.drop 4).take 4))
      else (0, 0)) = (e.unpacked.rdevmajor, e.unpacked.rdevminor) := by
  simp only [Entry.unpacked]
  cases hdev : isDev e.mode with
  | true =>
    have hlen := h.device hdev
    have hrest : (e.data.drop 4).take 4 = e.data.drop 4 :=
      List.take_of_length_le (by rw [List.length_drop, hlen])
    simp [hlen, hrest]
  | false => rfl

theorem Entry.Encodable.small (h : e.Encodable) (ino : UInt32) : ∀ v ∈ (e.header ino).toList, v < 2 ^ 32 := by
  have hnat : ∀ bytes : List UInt8, bytes.length = 4 → leNat bytes < 2 ^ 32 := by
    intro bytes hlen
    have hlt := leNat_lt bytes
    rwa [hlen] at hlt
  have hdata : e.unpacked.data.length < 2 ^ 32 := by
    simp only [Entry.unpacked]
    split
    · exact Nat.two_pow_pos 32
    · exact h.dataSize
  have hmajor : e.unpacked.rdevmajor < 2 ^ 32 := by
    simp only [Entry.unpacked]
    split
    · exact hnat _ (by rw [List.length_take, h.device ‹_›]; rfl)
    · exact Nat.two_pow_pos 32
  have hminor : e.unpacked.rdevminor < 2 ^ 32 := by
    simp only [Entry.unpacked]
    split
    · exact hnat _ (by rw [List.length_drop, h.device ‹_›])
    · exact Nat.two_pow_pos 32
  have hlink : (if isDir e.mode then 2 else 1) < 2 ^ 32 := by split <;> decide
  simp only [Entry.header, Header.toList, List.forall_mem_cons, List.not_mem_nil, false_imp_iff, implies_true, and_true]
  exact ⟨ino.toNat_lt, e.mode.toNat_lt, by decide, by decide, hlink, by decide, hdata, by decide, by decide, hmajor,
    hminor, h.pathSize, by decide⟩

def Entry.chunk (ino : UInt32) (e : Entry) : List UInt8 :=
  (e.header ino).bytes ++ (e.path ++ [0] ++ (List.replicate ((4 - (headerSize + e.path.length + 1) % 4) % 4) 0
    ++ (e.unpacked.data ++ List.replicate ((4 - e.unpacked.data.length % 4) % 4) 0)))

theorem Entry.Encodable.header_length (h : e.Encodable) (ino : UInt32) : (e.header ino).bytes.length = headerSize :=
  Header.bytes_length (h.small ino)

theorem Entry.Encodable.chunk_length (h : e.Encodable) (ino : UInt32) :
    (e.chunk ino).length = align4 (align4 (headerSize + e.path.length + 1) + e.unpacked.data.length) := by
  simp only [Entry.chunk, List.length_append, List.length_replicate, List.length_singleton, h.header_length ino, align4]
  omega

theorem align4_mod (n : Nat) : align4 n % 4 = 0 := Nat.mul_mod_left _ _

theorem cpioWriteEntry_eq (h : e.Encodable) (ino : UInt32) {buf : List UInt8} (hbuf : buf.length % 4 = 0) :
    cpioWriteEntry ino buf e.name e.mode e.data = buf ++ e.chunk ino := by
  have hzeros : zeros8 = hex8 0 := by decide +kernel
  have hheader : magic ++ hex8 ino.toNat ++ hex8 e.mode.toNat ++ zeros8 ++ zeros8
      ++ hex8 (if isDir e.mode then 2 else 1) ++ zeros8 ++ hex8 e.unpacked.data.length ++ zeros8 ++ zeros8
      ++ hex8 e.unpacked.rdevmajor ++ hex8 e.unpacked.rdevminor ++ hex8 (e.path.length + 1) ++ zeros8 =
      (e.header ino).bytes := by
    simp only [hzeros, Header.bytes, Header.toList, Entry.header, List.flatMap_cons, List.flatMap_nil, List.append_nil,
      List.append_assoc]
  have hlen := h.header_length ino
  have hnamed : (buf ++ (e.header ino).bytes ++ e.path ++ [0]).length % 4 = (headerSize + e.path.length + 1) % 4 := by
    simp only [List.length_append, hlen, List.length_singleton]
    omega
  have hpath : stripSlash e.name = e.path := rfl
  simp only [cpioWriteEntry, h.filesize, h.rdev, hpath, hheader, pad4, hnamed]
  split
  · rename_i hpos
    have hdata : e.data = e.unpacked.data := by
      simp only [Entry.unpacked] at hpos ⊢
      split
      · rename_i hdev
        rw [if_pos hdev] at hpos
        exact absurd hpos (Nat.lt_irrefl 0)
      · rfl
    have hpadded : (buf ++ (e.header ino).bytes ++ e.path ++ [0]
        ++ List.replicate ((4 - (headerSize + e.path.length + 1) % 4) % 4) 0 ++ e.unpacked.data).length % 4 =
        e.unpacked.data.length % 4 := by
      simp only [List.length_append, hlen, List.length_singleton, List.length_replicate]
      omega
    rw [hdata, hpadded]
    simp only [Entry.chunk, List.append_assoc]
  · rename_i hzero
    have hnil : e.unpacked.data = [] := List.eq_nil_of_length_eq_zero (by omega)
    rw [Entry.chunk, hnil]
    simp only [List.length_nil, List.append_assoc, List.append_nil, Nat.zero_mod, Nat.sub_zero, Nat.mod_self,
      List.replicate_zero]

theorem readEntry_chunk (h : e.Encodable) (ino : UInt32) {pre : List UInt8} (hpre : pre.length % 4 = 0)
    (rest : List UInt8) :
    readEntry (pre ++ (e.chunk ino ++ rest)) pre.length = some (e.unpacked, (pre ++ e.chunk ino).length) := by
  have hgap : pre.length + headerSize + (e.header ino).namesize
      + (List.replicate ((4 - (headerSize + e.path.length + 1) % 4) % 4) (0 : UInt8)).length =
      align4 (pre.length + headerSize + (e.header ino).namesize) := by
    simp only [Entry.header, List.length_replicate, align4]
    omega
  have hread := readEntry_bytes (h.small ino) pre e.path _ e.unpacked.data
    (List.replicate ((4 - e.unpacked.data.length % 4) % 4) 0 ++ rest) rfl rfl hgap
  have hbytes : e.chunk ino ++ rest = (e.header ino).bytes ++ (e.path ++ [0]
      ++ (List.replicate ((4 - (headerSize + e.path.length + 1) % 4) % 4) 0
        ++ (e.unpacked.data ++ (List.replicate ((4 - e.unpacked.data.length % 4) % 4) 0 ++ rest)))) := by
    simp only [Entry.chunk, List.append_assoc]
  rw [hbytes, hread]
  have hnext : align4 (pre.length + headerSize + (e.header ino).namesize
      + (List.replicate ((4 - (headerSize + e.path.length + 1) % 4) % 4) (0 : UInt8)).length + e.unpacked.data.length) =
      (pre ++ e.chunk ino).length := by
    rw [List.length_append, h.chunk_length ino, hgap]
    simp only [Entry.header, align4]
    omega
  rw [hnext]
  rfl

theorem Entry.Writable.encodable (h : e.Writable) (hsize : e.path.length + 1 < 2 ^ 32) : e.Encodable :=
  ⟨hsize, h.dataSize, h.device, h.directory⟩

def trailerEntry : Entry := ⟨trailerName, 0, []⟩

theorem trailerEntry_encodable : trailerEntry.Encodable where
  pathSize := by decide
  dataSize := by decide
  device h := absurd h (by decide)
  directory _ := rfl

theorem foldl_write (entries : List (UInt32 × Entry)) (h : ∀ e ∈ entries, e.2.Encodable) (buf : List UInt8)
    (hbuf : buf.length % 4 = 0) :
    entries.foldl (fun buf (ino, e) => cpioWriteEntry ino buf e.name e.mode e.data) buf =
        buf ++ entries.flatMap (fun e => e.2.chunk e.1) ∧
      (buf ++ entries.flatMap fun e => e.2.chunk e.1).length % 4 = 0 := by
  induction entries generalizing buf with
  | nil =>
    rw [List.flatMap_nil, List.append_nil]
    exact ⟨rfl, hbuf⟩
  | cons e entries ih =>
    obtain ⟨he, hes⟩ := List.forall_mem_cons.mp h
    have hnext : (buf ++ e.2.chunk e.1).length % 4 = 0 := by
      rw [List.length_append, he.chunk_length e.1, Nat.add_mod, hbuf, align4_mod]
    rw [List.foldl_cons, List.flatMap_cons, ← List.append_assoc]
    simp only [cpioWriteEntry_eq he e.1 hbuf]
    exact ih hes _ hnext

theorem archive_eq (entries : List (UInt32 × Entry)) (trailerIno : UInt32) (h : ∀ e ∈ entries, e.2.Encodable) :
    archive entries trailerIno = entries.flatMap (fun e => e.2.chunk e.1) ++ trailerEntry.chunk trailerIno := by
  obtain ⟨hwrite, hlen⟩ := foldl_write entries h [] rfl
  rw [List.nil_append] at hwrite hlen
  rw [archive, hwrite, cpioWriteTrailer]
  exact cpioWriteEntry_eq trailerEntry_encodable trailerIno hlen

theorem readArchive_chunks (trailerIno : UInt32) (entries : List (UInt32 × Entry))
    (h : ∀ e ∈ entries, e.2.Encodable ∧ e.2.path ≠ trailerName) (pre : List UInt8) (hpre : pre.length % 4 = 0) :
    ∃ found trailer, readArchive (pre ++ (entries.flatMap (fun e => e.2.chunk e.1) ++ trailerEntry.chunk trailerIno))
        pre.length = some (found, trailer) ∧
      found.map Prod.snd = entries.map (fun e => e.2.unpacked) ∧ (∀ p ∈ found, p.1 % 4 = 0) ∧ trailer % 4 = 0 := by
  -- what has been read is whole words throughout, for every chunk is
  induction entries generalizing pre with
  | nil =>
    have hread := readEntry_chunk trailerEntry_encodable trailerIno hpre []
    rw [List.append_nil] at hread
    refine ⟨[], pre.length, ?_, rfl, fun p hp => absurd hp List.not_mem_nil, hpre⟩
    rw [List.flatMap_nil, List.nil_append]
    exact readArchive_trailer hread rfl
  | cons e entries ih =>
    obtain ⟨⟨he, hname⟩, hes⟩ := List.forall_mem_cons.mp h
    have hnext : (pre ++ e.2.chunk e.1).length % 4 = 0 := by
      rw [List.length_append, he.chunk_length e.1, Nat.add_mod, hpre, align4_mod]
    obtain ⟨found, trailer, hrest, hentries, haligned, htrailer⟩ := ih hes _ hnext
    have hread := readEntry_chunk he e.1 hpre
      (entries.flatMap (fun e => e.2.chunk e.1) ++ trailerEntry.chunk trailerIno)
    refine ⟨(pre.length, e.2.unpacked) :: found, trailer, ?_, ?_, ?_, htrailer⟩
    · rw [List.append_assoc] at hrest
      rw [List.flatMap_cons, List.append_assoc, readArchive_entry hread hname, hrest]
      rfl
    · rw [List.map_cons, List.map_cons, hentries]
    · exact List.forall_mem_cons.mpr ⟨hpre, haligned⟩

/-- What is written entry by entry is read back entry by entry, headers on whole words. -/
theorem initrd_roundtrip (entries : List (UInt32 × Entry)) (trailerIno : UInt32)
    (h : ∀ e ∈ entries, e.2.Writable) (hsize : ∀ e ∈ entries, e.2.path.length + 1 < 2 ^ 32) :
    ∃ found trailer, ReadsBack entries trailerIno found trailer := by
  have hencodable : ∀ e ∈ entries, e.2.Encodable := fun e he => (h e he).encodable (hsize e he)
  obtain ⟨found, trailer, hread, hentries, haligned, htrailer⟩ := readArchive_chunks trailerIno entries
    (fun e he => ⟨hencodable e he, (h e he).notTrailer⟩) [] rfl
  refine ⟨found, trailer, ?_, hentries, haligned, htrailer⟩
  rw [archive_eq entries trailerIno hencodable]
  exact hread

def smallEntries : List (UInt32 × Entry) :=
  [(1, ⟨[47, 100, 101, 118], 0o040755, []⟩),
    (2, ⟨[47, 100, 101, 118, 47, 110, 117, 108, 108], 0o020666, [1, 0, 0, 0, 3, 0, 0, 0]⟩),
    (3, ⟨[47, 105, 110, 105, 116], 0o100755, [35, 33, 10]⟩)]

theorem initrd_roundtrip_small : ∃ found trailer, ReadsBack smallEntries 4 found trailer := by
  apply initrd_roundtrip
  · simp only [smallEntries, List.forall_mem_cons, List.not_mem_nil, false_imp_iff, implies_true, and_true]
    exact ⟨⟨by decide, by decide, by decide, by decide, by decide, by decide, by decide⟩,
      ⟨by decide, by decide, by decide, by decide, by decide, by decide, by decide⟩,
      ⟨by decide, by decide, by decide, by decide, by decide, by decide, by decide⟩⟩
  · decide

theorem stripSlash_replicate (n : Nat) : stripSlash (List.replicate n 97) = List.replicate n 97 := by
  cases n <;> rfl

def longEntry : Entry := ⟨List.replicate (2 ^ 32 - 1) 97, 0o100644, []⟩

theorem longEntry_path : longEntry.path = List.replicate (2 ^ 32 - 1) 97 := stripSlash_replicate _

theorem longEntry_writable : longEntry.Writable := by
  constructor
  · rw [longEntry_path, ne_eq, List.replicate_eq_nil_iff]
    decide
  · rw [longEntry_path, List.mem_replicate]
    exact fun h => absurd h.2 (by decide)
  · rw [longEntry_path]
    intro h
    have hlen := congrArg List.length h
    rw [List.length_replicate] at hlen
    exact absurd hlen (by decide)
  · rw [longEntry, List.length_replicate]
    decide
  · decide
  · exact fun h => absurd h (by decide)
  · exact fun _ => rfl

def longHeader : List UInt8 :=
  magic ++ hex8 1 ++ hex8 0o100644 ++ zeros8 ++ zeros8 ++ hex8 1 ++ zeros8 ++ hex8 0 ++ zeros8 ++ zeros8 ++ hex8 0
    ++ hex8 0 ++ hex8 (2 ^ 32) ++ zeros8

theorem cpioWriteEntry_long {n : Nat} (hn : n + 1 = 2 ^ 32) :
    ∃ rest, cpioWriteEntry 1 [] (List.replicate n 97) 0o100644 [] = longHeader ++ (List.replicate n 97 ++ rest) := by
  have hdir : isDir 0o100644 = false := by decide
  have hdev : isDev 0o100644 = false := by decide
  have hino : (1 : UInt32).toNat = 1 := rfl
  have hmode : (0o100644 : UInt32).toNat = 0o100644 := rfl
  simp only [cpioWriteEntry, stripSlash_replicate, List.length_replicate, hn, hdir, hdev, hino, hmode, Bool.or_false,
    Bool.false_and, Bool.false_eq_true, if_false, List.length_nil, ite_self, Nat.lt_irrefl, pad4, List.nil_append,
    List.append_assoc, longHeader]
  exact ⟨_, rfl⟩

theorem cpioWriteTrailer_append (ino : UInt32) (buf : List UInt8) : ∃ rest, cpioWriteTrailer ino buf = buf ++ rest := by
  simp only [cpioWriteTrailer, cpioWriteEntry, List.length_nil, ite_self, Nat.lt_irrefl, if_false, pad4,
    List.append_assoc]
  exact ⟨_, rfl⟩

theorem readHeader_long (tail : List UInt8) :
    readHeader (longHeader ++ tail) 0 = some ⟨1, 0o100644, 0, 0, 1, 0, 0, 0, 0, 0, 0, 2 ^ 28, 0⟩ := by
  have htake : ((longHeader ++ tail).drop 0).take headerSize = longHeader.take headerSize :=
    List.take_append_of_le_length (by decide +kernel)
  rw [readHeader, htake]
  decide

theorem readEntry_long {m n : Nat} (hm : 0 < m) (hsize : 1 + m = 2 ^ 28) (hmn : m ≤ n) (rest : List UInt8) :
    readEntry (longHeader ++ (List.replicate n 97 ++ rest)) 0 = none := by
  have hdrop : (longHeader ++ (List.replicate n 97 ++ rest)).drop (0 + headerSize) =
      [48] ++ (List.replicate n 97 ++ rest) := by
    have hrest : longHeader.drop (0 + headerSize) = [48] := by decide
    rw [List.drop_append_of_le_length (by decide), hrest]
  have hname : ([48] ++ (List.replicate n 97 ++ rest)).take (2 ^ 28) = 48 :: List.replicate m (97 : UInt8) := by
    rw [← hsize, List.singleton_append, Nat.add_comm, List.take_succ_cons,
      List.take_append_of_le_length (by rwa [List.length_replicate]), List.take_replicate, Nat.min_eq_left hmn]
  have hlast : (48 :: List.replicate m (97 : UInt8)).getLastD 1 = 97 := by
    obtain ⟨k, rfl⟩ := Nat.exists_eq_add_of_le' hm
    rw [List.replicate_succ', ← List.cons_append, List.getLastD_concat]
  rw [readEntry, readHeader_long]
  simp only [Option.bind_some, hdrop, hname, hlast]
  exact if_pos (.inr (.inl (by decide)))

theorem initrd_roundtrip_fails :
    longEntry.Writable ∧ ¬ ∃ found trailer, ReadsBack [(1, longEntry)] 2 found trailer := by
  refine ⟨longEntry_writable, ?_⟩
  rintro ⟨found, trailer, h⟩
  obtain ⟨rest, hentry⟩ := cpioWriteEntry_long (Nat.sub_add_cancel (Nat.one_le_two_pow (n := 32)))
  obtain ⟨rest', htrailer⟩ := cpioWriteTrailer_append 2 (longHeader ++ (List.replicate (2 ^ 32 - 1) 97 ++ rest))
  have harchive : archive [(1, longEntry)] 2 =
      longHeader ++ (List.replicate (2 ^ 32 - 1) 97 ++ (rest ++ rest')) := by
    rw [archive, List.foldl_cons, List.foldl_nil]
    simp only [longEntry]
    rw [hentry, htrailer, List.append_assoc, List.append_assoc]
  have hread := h.read
  have hnone := readEntry_long (m := 2 ^ 28 - 1) (n := 2 ^ 32 - 1) (by decide) (by decide) (by decide) (rest ++ rest')
  rw [harchive, readArchive] at hread
  split at hread
  · cases hread
  · rename_i hsome
    rw [hnone] at hsome
    cases hsome

end CloneVmm.Boot.Initrd
