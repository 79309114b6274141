import CloneVmm.Virtio.Confinement
import CloneVmm.Virtio.Framing

namespace CloneVmm.Virtio

open CloneVmm.Lib Fuse Prog

namespace Fuse

structure DirRecord where
  ino : Nat
  off : Nat
  namelen : Nat
  type : Nat
  name : Bytes
  deriving DecidableEq

def DirRecord.parse (bytes : Bytes) : DirRecord where
  ino := u64At bytes 0
  off := u64At bytes 8
  namelen := u32At bytes 16
  type := u32At bytes 20
  name := (bytes.drop Dirent.size).take (u32At bytes 16)

def entryOutSize (plus : Bool) : Nat := if plus then EntryOut.size else 0

def direntSize (plus : Bool) (namelen : Nat) : Nat := entryOutSize plus + Dirent.size + fuseDirentAlign namelen

def readRecords (plus : Bool) : Nat → Bytes → Option (List DirRecord)
  | _, [] => some []
  | 0, _ :: _ => none
  | fuel + 1, b :: bytes =>
    let r := DirRecord.parse ((b :: bytes).drop (entryOutSize plus))
    if (b :: bytes).length < direntSize plus r.namelen then none
    else (readRecords plus fuel ((b :: bytes).drop (direntSize plus r.namelen))).map (r :: ·)

def records (plus : Bool) (payload : Bytes) : Option (List DirRecord) := readRecords plus payload.length payload

theorem eight_dvd_direntSize (plus : Bool) (namelen : Nat) : 8 ∣ direntSize plus namelen := by
  cases plus <;> simp only [direntSize, entryOutSize, EntryOut.size, Dirent.size, fuseDirentAlign,
    if_true, Bool.false_eq_true, if_false] <;> omega

section Fields

variable (ino off namelen type : Nat) (rest : Bytes)

theorem u64At_dirent_off : u64At (dirent ino off namelen type ++ rest) 8 = off % 2 ^ 64 := by
  have hskip : (u64 ino).length = 8 := leBytes_length 8 ino
  have hfield : (u64 off).length = 8 := leBytes_length 8 off
  rw [u64At, dirent]
  simp only [List.append_assoc]
  rw [List.drop_left' hskip, List.take_left' hfield, u64, leNat_leBytes]
  norm_num

theorem u32At_dirent_namelen : u32At (dirent ino off namelen type ++ rest) 16 = namelen % 2 ^ 32 := by
  have hskip : (u64 ino ++ u64 off).length = 16 := by
    simp [u64]
  have hfield : (u32 namelen).length = 4 := leBytes_length 4 namelen
  rw [u32At, dirent]
  simp only [List.append_assoc]
  rw [← List.append_assoc (u64 ino), List.drop_left' hskip, List.take_left' hfield, u32, leNat_leBytes]
  norm_num

end Fields

end Fuse

namespace VirtioFs

def entryBytes (name : String) : Bytes := name.toUTF8.data.toList

theorem parse_record (plus : Bool) {ino entryIdx : Nat} {name : String} (metadata : Metadata) (rest : Bytes)
    {r : DirRecord} (hidx : entryIdx < 2 ^ 64) (hname : name.utf8ByteSize < 2 ^ 32)
    (hr : DirRecord.parse ((record plus ino entryIdx name metadata ++ rest).drop (entryOutSize plus)) = r) :
    r.off = entryIdx ∧ r.namelen = name.utf8ByteSize ∧ r.name = entryBytes name := by
  have hskip : (if plus then entryOut ino metadata else []).length = entryOutSize plus := by
    cases plus
    · rfl
    · exact entryOut_length ino metadata
  have hlen : (entryBytes name).length = name.utf8ByteSize := rfl
  simp only [record, List.append_assoc, List.drop_left' hskip] at hr
  rw [← hr]
  have hnamelen : ∀ type tail, u32At (dirent ino entryIdx name.utf8ByteSize type ++ tail) 16 = name.utf8ByteSize :=
    fun type tail => (u32At_dirent_namelen ino entryIdx _ type tail).trans (Nat.mod_eq_of_lt hname)
  refine ⟨?_, hnamelen _ _, ?_⟩
  · exact (u64At_dirent_off ino entryIdx _ _ _).trans (Nat.mod_eq_of_lt hidx)
  · simp only [DirRecord.parse]
    rw [hnamelen, List.drop_left' (dirent_length _ _ _ _)]
    exact List.take_left' hlen

/-- `bytes` are records of the entries with the given names, numbered from `i + 1`. -/
inductive Written (plus : Bool) : Nat → List String → Bytes → Prop
  | nil (i : Nat) : Written plus i [] []
  | cons {i ino : Nat} {name : String} {names : List String} {bytes : Bytes} {metadata : Metadata} :
      Written plus (i + 1) names bytes →
      Written plus i (name :: names) (record plus ino (i + 1) name metadata ++ bytes)

/-- The records of a page, with the numbers and the names of the entries. -/
structure Lists (i : Nat) (names : List String) (rs : List DirRecord) : Prop where
  off : rs.map DirRecord.off = (List.range' (i + 1) names.length)
  name : rs.map DirRecord.name = names.map entryBytes
  namelen : rs.map DirRecord.namelen = names.map String.utf8ByteSize

theorem Written.length {plus : Bool} {i : Nat} {names : List String} {bytes : Bytes} (h : Written plus i names bytes) :
    bytes.length = (names.map (recordSize plus)).sum := by
  induction h with
  | nil i => rfl
  | cons _ ih => rw [List.length_append, record_length, ih, List.map_cons, List.sum_cons]

theorem recordSize_pos (plus : Bool) (name : String) : 0 < recordSize plus name := by
  unfold recordSize Dirent.size
  omega

theorem Written.readRecords {plus : Bool} {i : Nat} {names : List String} {bytes : Bytes}
    (h : Written plus i names bytes) (hidx : i + names.length < 2 ^ 64) (hlen : bytes.length < 2 ^ 32) {fuel : Nat}
    (hfuel : bytes.length ≤ fuel) :
    ∃ rs, Fuse.readRecords plus fuel bytes = some rs ∧ Lists i names rs := by
  induction h generalizing fuel with
  | nil i => exact ⟨[], by unfold Fuse.readRecords; rfl, rfl, rfl, rfl⟩
  | @cons i ino name names bytes metadata _ ih =>
    have hrecord := record_length plus ino (i + 1) name metadata
    have hpos := recordSize_pos plus name
    have hsize : name.utf8ByteSize ≤ recordSize plus name := by
      unfold recordSize fuseDirentAlign
      omega
    rw [List.length_append, hrecord] at hlen hfuel
    rw [List.length_cons] at hidx
    obtain ⟨fuel, rfl⟩ : ∃ k, fuel = k + 1 := ⟨fuel - 1, by omega⟩
    obtain ⟨rs, hrs, hlists⟩ := ih (by omega) (by omega) (by omega : bytes.length ≤ fuel)
    generalize hparse : DirRecord.parse
      ((record plus ino (i + 1) name metadata ++ bytes).drop (entryOutSize plus)) = r
    obtain ⟨hoff, hnamelen, hname⟩ := parse_record plus metadata bytes (by omega) (by omega) hparse
    have hconsumed : direntSize plus r.namelen = (record plus ino (i + 1) name metadata).length := by
      rw [hnamelen, hrecord]
      rfl
    have hread : Fuse.readRecords plus (fuel + 1) (record plus ino (i + 1) name metadata ++ bytes) =
        some (r :: rs) := by
      cases hall : record plus ino (i + 1) name metadata ++ bytes with
      | nil =>
        have := congrArg List.length hall
        rw [List.length_append, hrecord, List.length_nil] at this
        omega
      | cons b tail =>
        rw [Fuse.readRecords, ← hall]
        rw [hparse, hconsumed, List.drop_left' rfl, hrs, if_neg (by rw [List.length_append]; omega)]
        rfl
    refine ⟨r :: rs, hread, ?_, ?_, ?_⟩
    · rw [List.map_cons, List.length_cons, List.range'_succ, hoff, hlists.off]
    · rw [List.map_cons, List.map_cons, hname, hlists.name]
    · rw [List.map_cons, List.map_cons, hnamelen, hlists.namelen]

def listing (names : List String) : List String := "." :: ".." :: names

theorem direntries_fst (dirPath : PathBuf) (names : List String) :
    (direntries dirPath names).map Prod.fst = listing names := by
  simp [direntries, listing, Function.comp_def]

section Loop

variable {host : Host} {plus : Bool} {maxSize offset since : Nat}

theorem readdirLoop_skip (entries : List (String × PathBuf)) (buf : Bytes) {i : Nat} (hi : i ≤ offset) :
    readdirLoop host plus maxSize offset i entries buf =
      readdirLoop host plus maxSize offset offset (entries.drop (offset - i)) buf := by
  induction entries generalizing i with
  | nil => rw [List.drop_nil, readdirLoop, readdirLoop]
  | cons entry entries ih =>
    obtain ⟨name, path⟩ := entry
    obtain rfl | hlt := hi.eq_or_lt
    · rw [Nat.sub_self, List.drop_zero]
    · have hnext : i + 1 ≤ offset := hlt
      have hdrop : offset - i = (offset - (i + 1)) + 1 := by
        omega
      rw [readdirLoop, if_pos hnext, ih hnext, hdrop, List.drop_succ_cons]

structure Page (plus : Bool) (maxSize i : Nat) (names : List String) (buf : Bytes) (taken : List String)
    (out : Bytes) : Prop where
  front : taken <+: names
  written : ∃ bytes, out = buf ++ bytes ∧ Written plus i taken bytes
  fits : out.length ≤ maxSize
  full : ∀ name ∈ (names.drop taken.length).head?, maxSize < out.length + recordSize plus name

theorem readdirLoop_page {entries : List (String × PathBuf)}
    (hreadable : ∀ n, since ≤ n → ∀ entry ∈ entries,
      ∃ metadata, host.answer n (.symlinkMetadata entry.2) = .ok metadata)
    {i : Nat} (hi : offset ≤ i) {buf : Bytes} (hbuf : buf.length ≤ maxSize) {fs : VirtioFs}
    (hsince : since ≤ fs.calls.length) :
    (readdirLoop host plus maxSize offset i entries buf).Wp
      (fun out _ => ∃ taken, Page plus maxSize i (entries.map Prod.fst) buf taken out) (fun _ _ => False) fs := by
  induction entries generalizing i buf fs with
  | nil => exact wp_pure ⟨[], List.prefix_rfl, ⟨[], (List.append_nil buf).symm, .nil i⟩, hbuf, nofun⟩
  | cons entry entries ih =>
    obtain ⟨name, path⟩ := entry
    rw [readdirLoop, if_neg (by omega)]
    by_cases hroom : buf.length + recordSize plus name > maxSize
    · rw [if_pos hroom]
      refine wp_pure ⟨[], List.nil_prefix, ⟨[], (List.append_nil buf).symm, .nil i⟩, hbuf, ?_⟩
      intro next hnext
      cases hnext
      exact hroom
    · rw [if_neg hroom]
      have hrest : ∀ n, since ≤ n → ∀ entry ∈ entries,
          ∃ metadata, host.answer n (.symlinkMetadata entry.2) = .ok metadata :=
        fun n hn entry hentry => hreadable n hn entry (List.mem_cons_of_mem _ hentry)
      obtain ⟨metadata, hmetadata⟩ := hreadable fs.calls.length hsince (name, path) (List.mem_cons_self ..)
      have hfits : ∀ ino, (buf ++ record plus ino (i + 1) name metadata).length ≤ maxSize := by
        intro ino
        have hrecord := record_length plus ino (i + 1) name metadata
        rw [List.length_append]
        omega
      have hlater : since ≤ (fs.calls ++ [HostCall.symlinkMetadata path]).length := by
        rw [List.length_append]
        omega
      apply wp_modifyGet_bind
      dsimp only
      rw [hmetadata]
      apply wp_modifyGet_bind
      refine (ih hrest (by omega) (hfits _) hlater).mono ?_ fun _ _ hfalse => hfalse
      rintro out _ ⟨taken, hfront, ⟨bytes, rfl, hwritten⟩, hfits, hfull⟩
      refine ⟨name :: taken, ?_, ?_, hfits, hfull⟩
      · exact (List.prefix_cons_inj name).mpr hfront
      · exact ⟨_, List.append_assoc .., .cons hwritten⟩

end Loop

structure Steady (host : Host) (since : Nat) (dirPath : PathBuf) (names : List String) : Prop where
  listed : ∀ n, since ≤ n → host.answer n (.readDir dirPath) = .ok names
  readable : ∀ n, since ≤ n → ∀ entry ∈ direntries dirPath names,
    ∃ metadata, host.answer n (.symlinkMetadata entry.2) = .ok metadata

structure ReaddirCall where
  fs : VirtioFs
  header : InHeader
  body : Bytes

namespace ReaddirCall

variable (c : ReaddirCall)

def fields : ReadIn := readIn.parse c.body

/-- The reply holds records, which fit into the buffer of the request. -/
structure Replies (host : Host) (plus : Bool) (payload : Bytes) (rs : List DirRecord) : Prop where
  result : ((handleReaddir host c.header c.body plus).exec c.fs).1 = .ok (makeResponse c.header.unique payload)
  records : Fuse.records plus payload = some rs
  total : payload.length = (rs.map fun r => direntSize plus r.namelen).sum
  aligned : ∀ r ∈ rs, 8 ∣ direntSize plus r.namelen
  fits : payload.length ≤ c.fields.size

end ReaddirCall

theorem handleReaddir_page {host : Host} {plus : Bool} {dirPath : PathBuf} {names : List String} {c : ReaddirCall}
    (hbody : readIn.size ≤ c.body.length) (hdir : c.fs.inodeMap.getDir c.fields.fh = some dirPath)
    (hsteady : Steady host c.fs.calls.length dirPath names) :
    (handleReaddir host c.header c.body plus).Wp
      (fun reply _ => ∃ payload taken, reply = makeResponse c.header.unique payload ∧
        Page plus c.fields.size c.fields.offset ((listing names).drop c.fields.offset) [] taken payload)
      (fun _ _ => False) c.fs := by
  have hread : readIn.read? c.body = some c.fields := if_neg (Nat.not_lt.mpr hbody)
  refine wp_lookup_bind (exec_orFail einval (readIn.read? c.body) c.fs) (fun hnone => ?_) ?_
  · rw [hread] at hnone
    cases hnone
  intro fields hfields
  rw [hread] at hfields
  cases hfields
  refine wp_lookup_bind (exec_getDir c.fields.fh c.fs) (fun hnone => ?_) ?_
  · rw [hdir] at hnone
    cases hnone
  intro path hpath
  rw [hdir] at hpath
  cases hpath
  have hask := exec_ask host (.readDir dirPath) c.fs
  rw [hsteady.listed _ le_rfl] at hask
  apply Wp.bind
  refine wp_of_exec hask ?_
  rw [readdirLoop_skip _ _ (Nat.zero_le _)]
  apply Wp.bind
  have hreadable : ∀ n, c.fs.calls.length ≤ n → ∀ entry ∈ (direntries dirPath names).drop (c.fields.offset - 0),
      ∃ metadata, host.answer n (.symlinkMetadata entry.2) = .ok metadata :=
    fun n hn entry hentry => hsteady.readable n hn entry (List.mem_of_mem_drop hentry)
  have hlater : c.fs.calls.length ≤ (c.fs.calls ++ [HostCall.readDir dirPath]).length := by
    rw [List.length_append]
    omega
  refine (readdirLoop_page hreadable le_rfl (Nat.zero_le _) hlater).mono ?_ fun _ _ hfalse => hfalse
  rintro out t ⟨taken, hout⟩
  rw [List.map_drop, direntries_fst] at hout
  exact wp_pure ⟨out, taken, rfl, hout⟩

theorem Page.taken_ne_nil {plus : Bool} {maxSize i : Nat} {names taken : List String} {out : Bytes}
    (h : Page plus maxSize i names [] taken out) (hnames : names ≠ [])
    (hfits : ∀ name ∈ names, recordSize plus name ≤ maxSize) : taken ≠ [] := by
  rintro rfl
  obtain ⟨bytes, rfl, hwritten⟩ := h.written
  cases hwritten
  obtain ⟨name, rest, rfl⟩ := List.exists_cons_of_ne_nil hnames
  have hfull := h.full name rfl
  have hsize := hfits name (List.mem_cons_self ..)
  rw [List.length_nil] at hfull
  omega

theorem Lists.length {i : Nat} {names : List String} {rs : List DirRecord} (h : Lists i names rs) :
    rs.length = names.length := by
  simpa using congrArg List.length h.name

/-- The offset for the request after a reply with the records `rs`. -/
def nextOffset (rs : List DirRecord) (offset : Nat) : Nat := (rs.getLast?.map DirRecord.off).getD offset

theorem Lists.nextOffset {i : Nat} {names : List String} {rs : List DirRecord} (h : Lists i names rs) :
    nextOffset rs i = i + names.length := by
  rw [VirtioFs.nextOffset, ← List.getLast?_map, h.off, List.getLast?_range']
  split
  · simp [*]
  · change i + 1 + names.length - 1 = i + names.length
    omega

theorem ReaddirCall.replies {host : Host} {plus : Bool} {dirPath : PathBuf} {names : List String} {c : ReaddirCall}
    (hbound : names.length + 2 < 2 ^ 64) (hbody : readIn.size ≤ c.body.length)
    (hdir : c.fs.inodeMap.getDir c.fields.fh = some dirPath) (hsteady : Steady host c.fs.calls.length dirPath names)
    (hfits : ∀ name ∈ listing names, recordSize plus name ≤ c.fields.size)
    (hoffset : c.fields.offset ≤ (listing names).length) :
    ∃ payload rs taken, c.Replies host plus payload rs ∧ Lists c.fields.offset taken rs ∧
      taken <+: (listing names).drop c.fields.offset ∧ (taken = [] → (listing names).drop c.fields.offset = []) := by
  have hpage : (handleReaddir host c.header c.body plus).Wp
      (fun reply _ => ∃ payload taken, reply = makeResponse c.header.unique payload ∧
        Page plus c.fields.size c.fields.offset ((listing names).drop c.fields.offset) [] taken payload)
      (fun _ _ => False) c.fs := handleReaddir_page hbody hdir hsteady
  cases hrun : (handleReaddir host c.header c.body plus).exec c.fs with
  | mk result t =>
    cases result with
    | error fault => exact (hpage.error hrun).elim
    | ok reply =>
      obtain ⟨payload, taken, rfl, hpage⟩ := hpage.ok hrun
      obtain ⟨bytes, hbytes, hwritten⟩ := hpage.written
      obtain rfl : payload = bytes := hbytes
      have hsize : c.fields.size < 2 ^ 32 := u32At_lt _ _
      have hfits' := hpage.fits
      have htaken := hpage.front.length_le
      rw [List.length_drop] at htaken
      have hlisting : (listing names).length = names.length + 2 := rfl
      obtain ⟨rs, hrs, hlists⟩ := hwritten.readRecords (by omega) (by omega) le_rfl
      refine ⟨payload, rs, taken, ⟨?_, hrs, ?_, ?_, hfits'⟩, hlists, hpage.front, ?_⟩
      · rw [hrun]
      · have hsizes : rs.map (fun r => direntSize plus r.namelen) = taken.map (recordSize plus) := by
          have := congrArg (List.map (direntSize plus)) hlists.namelen
          rwa [List.map_map, List.map_map] at this
        rw [hsizes]
        exact hwritten.length
      · exact fun r _ => eight_dvd_direntSize plus r.namelen
      · intro hnil
        by_contra hne
        exact hpage.taken_ne_nil hne (fun name hname => hfits name (List.mem_of_mem_drop hname)) hnil

structure Holds (host : Host) (since : Nat) (dirPath : PathBuf) (entries : List OsName) : Prop where
  plain : ∀ s, .text s ∈ entries → s ≠ "" ∧ s ≠ "." ∧ s ≠ ".." ∧ '/' ∉ s.toList
  listed : ∀ n, since ≤ n → host.answer n (.readDir dirPath) = .ok (entries.map OsName.toStringLossy)
  readable : ∀ n, since ≤ n →
    ∀ path ∈ dirPath :: dirPath.parent.getD dirPath :: entries.map fun name => dirPath.extend [name],
      ∃ metadata, host.answer n (.symlinkMetadata path) = .ok metadata

theorem Holds.steady {host : Host} {since : Nat} {dirPath : PathBuf} {entries : List OsName}
    (h : Holds host since dirPath entries) (htext : ∀ name ∈ entries, name.isText = true) :
    Steady host since dirPath (entries.map OsName.toStringLossy) := by
  refine ⟨h.listed, ?_⟩
  intro n hn entry hentry
  apply h.readable n hn
  rcases List.mem_cons.mp hentry with rfl | hentry
  · exact List.mem_cons_self ..
  rcases List.mem_cons.mp hentry with rfl | hentry
  · exact List.mem_cons_of_mem _ (List.mem_cons_self ..)
  rw [List.map_map] at hentry
  obtain ⟨name, hname, rfl⟩ := List.mem_map.mp hentry
  cases name with
  | raw bytes => cases htext _ hname
  | text s =>
    obtain ⟨hne, hdot, -, hsep⟩ := h.plain s hname
    apply List.mem_cons_of_mem
    apply List.mem_cons_of_mem
    exact List.mem_map.mpr ⟨.text s, hname, (PathBuf.join_ofStr_plain dirPath hsep hne hdot).symm⟩

structure Paging (host : Host) (plus : Bool) (dirPath : PathBuf) (entries : List OsName)
    (calls : Nat → ReaddirCall) : Prop where
  body : ∀ k, readIn.size ≤ (calls k).body.length
  dir : ∀ k, (calls k).fs.inodeMap.getDir (calls k).fields.fh = some dirPath
  holds : ∀ k, Holds host (calls k).fs.calls.length dirPath entries
  room : ∀ k, ∀ name ∈ listing (entries.map OsName.toStringLossy), recordSize plus name ≤ (calls k).fields.size
  first : (calls 0).fields.offset = 0
  next : ∀ k payload rs, (calls k).Replies host plus payload rs →
    (calls (k + 1)).fields.offset = nextOffset rs (calls k).fields.offset

/-- The replies are pages of records, empty from number `n` on, which name every entry once and in order. -/
structure Pages (host : Host) (plus : Bool) (entries : List OsName) (calls : Nat → ReaddirCall)
    (payloads : Nat → Bytes) (pages : Nat → List DirRecord) (n : Nat) : Prop where
  replies : ∀ k, (calls k).Replies host plus (payloads k) (pages k)
  ends : ∀ k, payloads k = [] ↔ n ≤ k
  names : ((List.range n).flatMap pages).map DirRecord.name =
    entryBytes "." :: entryBytes ".." :: entries.map OsName.bytes

theorem ReaddirCall.Replies.payload_eq_nil_iff {c : ReaddirCall} {host : Host} {plus : Bool} {payload : Bytes}
    {rs : List DirRecord} (h : c.Replies host plus payload rs) : payload = [] ↔ rs = [] := by
  constructor
  · rintro rfl
    exact (Option.some.inj h.records).symm
  · rintro rfl
    exact List.eq_nil_of_length_eq_zero h.total

theorem pages_list_every_entry {host : Host} {plus : Bool} {dirPath : PathBuf} {entries : List OsName}
    {calls : Nat → ReaddirCall} (hbound : entries.length + 2 < 2 ^ 64)
    (htext : ∀ name ∈ entries, name.isText = true) (h : Paging host plus dirPath entries calls) :
    ∃ payloads pages n, Pages host plus entries calls payloads pages n := by
  obtain ⟨names, hnames⟩ : ∃ names, entries.map OsName.toStringLossy = names := ⟨_, rfl⟩
  have hlength : names.length + 2 < 2 ^ 64 := by
    rwa [← hnames, List.length_map]
  have hbytes : entries.map OsName.bytes = names.map entryBytes := by
    rw [← hnames, List.map_map]
    apply List.map_congr_left
    intro name hname
    cases name with
    | raw bytes => cases htext _ hname
    | text s => rfl
  have hone := fun k => ReaddirCall.replies hlength (h.body k) (h.dir k)
    (hnames ▸ (h.holds k).steady htext) (hnames ▸ h.room k)
  have hoffset : ∀ k, (calls k).fields.offset ≤ (listing names).length := by
    intro k
    induction k with
    | zero => simp [h.first]
    | succ k ih =>
      obtain ⟨payload, rs, taken, hreplies, hlists, hfront, -⟩ := hone k ih
      have htaken := hfront.length_le
      rw [List.length_drop] at htaken
      rw [h.next k payload rs hreplies, hlists.nextOffset]
      omega
  choose payloads pages taken hreplies hlists hfront hend using fun k => hone k (hoffset k)
  have hnext : ∀ k, (calls (k + 1)).fields.offset = (calls k).fields.offset + (taken k).length :=
    fun k => (h.next k _ _ (hreplies k)).trans (hlists k).nextOffset
  have hdone : ∀ k, payloads k = [] ↔ (listing names).length ≤ (calls k).fields.offset := by
    intro k
    rw [(hreplies k).payload_eq_nil_iff, ← List.length_eq_zero_iff, (hlists k).length, List.length_eq_zero_iff,
      ← List.drop_eq_nil_iff]
    constructor
    · exact hend k
    · intro hnil
      have := hfront k
      rwa [hnil, List.prefix_nil] at this
  have hlisted : ∀ k, ((List.range k).flatMap pages).map DirRecord.name =
      ((listing names).take (calls k).fields.offset).map entryBytes := by
    intro k
    induction k with
    | zero => simp [h.first]
    | succ k ih =>
      have htaken := List.prefix_iff_eq_take.mp (hfront k)
      rw [List.range_succ, List.flatMap_append, List.map_append, ih, hnext, List.take_add, List.map_append, ← htaken,
        ← (hlists k).name, List.flatMap_singleton]
  have hgrow : ∀ k, (calls k).fields.offset < (listing names).length →
      (calls k).fields.offset < (calls (k + 1)).fields.offset := by
    intro k hlt
    have hne : taken k ≠ [] := by
      intro hnil
      have := List.drop_eq_nil_iff.mp (hend k hnil)
      omega
    have hpos := List.length_pos_iff.mpr hne
    have hstep := hnext k
    omega
  have hreach : ∃ k, (listing names).length ≤ (calls k).fields.offset := by
    by_contra hnone
    push Not at hnone
    have hfar : ∀ k, k ≤ (calls k).fields.offset := by
      intro k
      induction k with
      | zero => exact Nat.zero_le _
      | succ k ih => exact ih.trans_lt (hgrow k (hnone k))
    have := hfar (listing names).length
    have := hnone (listing names).length
    omega
  refine ⟨payloads, pages, Nat.find hreach, ⟨hreplies, ?_, ?_⟩⟩
  · intro k
    rw [hdone]
    constructor
    · exact Nat.find_min' hreach
    · intro hk
      induction k, hk using Nat.le_induction with
      | base => exact Nat.find_spec hreach
      | succ k _ ih =>
        have hstep := hnext k
        omega
  · rw [hlisted, List.take_of_length_le (Nat.find_spec hreach), hbytes]
    rfl

def pageCall (offset : Nat) : ReaddirCall where
  fs := ⟨share, ((InodeMap.new share).openDir share).2, []⟩
  header := ⟨28, 7, rootId, 0, 0⟩
  body := u64 1 ++ u64 offset ++ u32 32 ++ List.replicate 20 0

def pageRecords (host : Host) (offset : Nat) : Option (List DirRecord) :=
  match ((handleReaddir host (pageCall offset).header (pageCall offset).body false).exec (pageCall offset).fs).1 with
  | .ok reply => records false (reply.drop OutHeader.size)
  | .error _ => none

theorem pageRecords_of_replies {host : Host} {offset : Nat} {payload : Bytes} {rs : List DirRecord}
    (h : (pageCall offset).Replies host false payload rs) : pageRecords host offset = some rs := by
  have hdrop : (makeResponse (pageCall offset).header.unique payload).drop OutHeader.size = payload :=
    List.drop_left' (outHeader_length _ _ _)
  unfold pageRecords
  rw [h.result]
  dsimp only
  rw [hdrop, h.records]

theorem pageCall_paging {host : Host} {entries : List OsName} {total : Nat} (htotal : total ≤ 4)
    (hholds : Holds host 0 share entries) (hroom : ∀ name ∈ entries, recordSize false name.toStringLossy ≤ 32)
    (hreply : ∀ o ≤ total, (pageRecords host o).map (nextOffset · o) = some (min (o + 1) total)) :
    Paging host false share entries fun k => pageCall (min k total) := by
  have hrequest : ∀ o ≤ 4, readIn.size ≤ (pageCall o).body.length ∧ (pageCall o).fields.offset = o ∧
      (pageCall o).fs.inodeMap.getDir (pageCall o).fields.fh = some share ∧ (pageCall o).fields.size = 32 := by
    decide +kernel
  have hdots : recordSize false "." ≤ 32 ∧ recordSize false ".." ≤ 32 := by
    decide +kernel
  have hlast : ∀ k, min k total ≤ total := fun k => Nat.min_le_right k total
  have hat : ∀ k, min k total ≤ 4 := fun k => (hlast k).trans htotal
  refine ⟨fun k => (hrequest _ (hat k)).1, fun k => (hrequest _ (hat k)).2.2.1, fun _ => hholds, ?_,
    (hrequest 0 (hat 0)).2.1, ?_⟩
  · intro k name hname
    rw [(hrequest _ (hat k)).2.2.2]
    rcases List.mem_cons.mp hname with rfl | hname
    · exact hdots.1
    rcases List.mem_cons.mp hname with rfl | hname
    · exact hdots.2
    obtain ⟨entry, hentry, rfl⟩ := List.mem_map.mp hname
    exact hroom entry hentry
  · intro k payload rs hreplies
    have hnext := hreply _ (hlast k)
    rw [pageRecords_of_replies hreplies, Option.map_some, Option.some.injEq] at hnext
    rw [(hrequest _ (hat k)).2.1, (hrequest _ (hat (k + 1))).2.1, hnext]
    omega

def namesHost : Host where
  answer _ c := match c with
    | .symlinkMetadata _ => .ok dirMetadata
    | .readDir _ => .ok ["a", "b"]
    | _ => .error enosys
  order table := table.entries
  order_perm := dirHost.order_perm

theorem pages_list_every_entry_names :
    ∃ payloads pages n, Pages namesHost false [.text "a", .text "b"] (fun k => pageCall (min k 4)) payloads pages n := by
  apply pages_list_every_entry (by decide) (by decide)
  apply pageCall_paging (Nat.le_refl 4)
  · refine ⟨?_, fun _ _ => rfl, fun _ _ _ _ => ⟨dirMetadata, rfl⟩⟩
    intro s hs
    simp only [List.mem_cons, OsName.text.injEq, List.not_mem_nil, or_false] at hs
    rcases hs with rfl | rfl
    · decide
    · decide
  · decide
  · decide +kernel

def rawHost : Host where
  answer _ c := match c with
    | .symlinkMetadata path =>
      if path ∈ [share, ⟨true, [.text "srv"]⟩, share.extend [.raw [255]]] then .ok dirMetadata
      else .error enoent
    | .readDir _ => .ok [OsName.toStringLossy (.raw [255])]
    | _ => .error enosys
  order table := table.entries
  order_perm := dirHost.order_perm

theorem pages_list_every_entry_fails :
    Paging rawHost false share [.raw [255]] (fun k => pageCall (min k 2)) ∧
      ¬ ∃ payloads pages n, Pages rawHost false [.raw [255]] (fun k => pageCall (min k 2)) payloads pages n := by
  constructor
  · apply pageCall_paging (by decide)
    · refine ⟨?_, fun _ _ => rfl, ?_⟩
      · intro s hs
        cases List.mem_singleton.mp hs
      · intro n _ path hpath
        refine ⟨dirMetadata, if_pos ?_⟩
        simpa [PathBuf.parent, share] using hpath
    · decide +kernel
    · decide +kernel
  · rintro ⟨payloads, pages, n, h⟩
    have hnames : ∀ o ≤ 2, ∀ rs ∈ pageRecords rawHost o, ∀ r ∈ rs, r.name ≠ [255] := by
      decide
    have hmem : [255] ∈ ((List.range n).flatMap pages).map DirRecord.name := by
      rw [h.names]
      simp [OsName.bytes]
    obtain ⟨r, hr, hname⟩ := List.mem_map.mp hmem
    obtain ⟨k, -, hr⟩ := List.mem_flatMap.mp hr
    exact hnames _ (Nat.min_le_right k 2) _ (pageRecords_of_replies (h.replies k)) r hr hname

end VirtioFs

end CloneVmm.Virtio
