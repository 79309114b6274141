import CloneVmm.Boot.LoadKernel
import CloneVmm.Lib.PathBuf
import CloneVmm.Lib.Run

/-!
`boot/measured.rs`, the manifest check of `run` and `mmap_kernel`, one byte at a time, while other
processes change the files.
-/

namespace CloneVmm.Boot.Measured

open CloneVmm.Lib CloneVmm.Vmm

structure TrustedManifest where
  hashes : List (String × String)
  signature : String

structure Packages where
  sha256 : List UInt8 → List UInt8
  parseManifest : String → Except String TrustedManifest

def context {α : Type} (text : String) : Except String α → Except String α
  | .ok a => .ok a
  | .error e => .error s!"{text}: {e}"

def hexDigit (b : UInt8) : Option Nat :=
  let n := b.toNat
  if 48 ≤ n ∧ n ≤ 57 then some (n - 48)
  else if 97 ≤ n ∧ n ≤ 102 then some (n - 87)
  else if 65 ≤ n ∧ n ≤ 70 then some (n - 55)
  else none

def fromStrRadix (a b : UInt8) : Option UInt8 :=
  if a = 43 then (hexDigit b).map UInt8.ofNat
  else do
    let hi ← hexDigit a
    let lo ← hexDigit b
    return UInt8.ofNat (16 * hi + lo)

def hexChar (n : Nat) : Char := Char.ofNat (if n < 10 then 48 + n else 87 + n)

def hexEncode (bytes : List UInt8) : String :=
  String.ofList (bytes.flatMap fun b => [hexChar (b.toNat / 16), hexChar (b.toNat % 16)])

def hexPairs (i : Nat) : List UInt8 → Except String (List UInt8)
  | a :: b :: rest =>
    match fromStrRadix a b with
    | none => .error s!"Invalid hex at position {i}"
    | some byte => (hexPairs (i + 2) rest).map (byte :: ·)
  | _ => .ok []

def hexDecode (hex : String) : Except String (List UInt8) :=
  if (ascii hex).length % 2 ≠ 0 then .error "Hex string has odd length" else hexPairs 0 (ascii hex)

def fromHex (hex : String) : Except String (List UInt8) := do
  let bytes ← context "Invalid hex string for kernel hash" (hexDecode hex)
  if bytes.length ≠ 32 then throw s!"Expected 32-byte SHA-256 hash, got {bytes.length} bytes"
  return bytes

def verifierForKernel (manifest : TrustedManifest) (kernelName : String) : Except String (List UInt8) :=
  match manifest.hashes.lookup kernelName with
  | none => .error s!"No trusted hash for kernel: {kernelName}"
  | some hashHex => fromHex hashHex

def loadTrustedHashes (pkg : Packages) (manifestPath : String) (file : Except String String) :
    Except String TrustedManifest := do
  let data ← context s!"Failed to read manifest: {manifestPath}" file
  let manifest ← context "Failed to parse kernel manifest JSON" (pkg.parseManifest data)
  if manifest.hashes.isEmpty then throw "Kernel manifest contains no hashes"
  return manifest

def fileName (p : PathBuf) : Option String :=
  match p.comps.getLast? with
  | some (.text name) => if name = "." ∨ name = ".." then none else some name
  | _ => none

structure RunArgs where
  kernel : String
  kernelManifest : String
  mem : GuestMem
  store : ByteStore
  config : LoadConfig

def kernelVerifier (pkg : Packages) (args : RunArgs) (file : Except String String) : Except String (List UInt8) := do
  let manifest ← context "Failed to load kernel manifest" (loadTrustedHashes pkg args.kernelManifest file)
  let kernelName := (fileName (.ofStr args.kernel)).getD args.kernel
  context "Kernel not found in manifest" (verifierForKernel manifest kernelName)

/-- The file that the path of the kernel names, if any, and what the files hold. -/
structure Files where
  named : Option Nat
  content : Nat → List UInt8

def mappedByte (content : List UInt8) (i : Nat) : Option UInt8 :=
  if i < content.length then content[i]?
  else if i < (content.length + 4095) / 4096 * 4096 then some 0
  else none

inductive Phase
  | start
  | verifierReady
  | verifying (inode : Nat) (buf : List UInt8)
  | verified
  | sized (inode len : Nat)
  | mapped (inode len : Nat) (buf : List UInt8)
  | mapFailed
  | reading (inode : Nat) (buf : List UInt8)
  | loading (kernelData : List UInt8)
  | loaded (kernelData : List UInt8) (store : ByteStore) (entry : Nat)
  | failed (error : String)

/-- `checked` is what `verify_kernel` returned; its caller drops it. -/
structure RunState where
  files : Files
  expectedHash : Option (List UInt8)
  checked : List UInt8
  phase : Phase

inductive Act
  | rename (target : Option Nat)
  | write (inode : Nat) (bytes : List UInt8)
  | loadManifest (file : Except String String)
  | proceed
  | mmapFails
  | fails (error : String)

namespace RunState

variable (pkg : Packages) (args : RunArgs)

def start (files : Files) : RunState := ⟨files, none, [], .start⟩

def goto (s : RunState) (phase : Phase) : RunState := { s with phase := phase }

def openFile (s : RunState) (error : String) (next : Nat → Phase) : RunState :=
  s.goto ((s.files.named.map next).getD (.failed error))

/-- `KernelVerifier::verify_kernel`, once the file has been read. -/
def verifyKernel (s : RunState) (data : List UInt8) : RunState :=
  if s.expectedHash = some (pkg.sha256 data) then { s with checked := data, phase := .verified }
  else
    let expected := hexEncode (s.expectedHash.getD [])
    let actual := hexEncode (pkg.sha256 data)
    s.goto (.failed s!"Kernel hash mismatch for {args.kernel}!\n  expected: {expected}\n  actual:   {actual}")

def openKernel (s : RunState) : RunState :=
  s.openFile s!"Failed to open kernel: {args.kernel}" fun inode =>
    let len := (s.files.content inode).length
    if len = 0 then .failed s!"Kernel file is empty: {args.kernel}" else .sized inode len

def loadKernel (s : RunState) (data : List UInt8) : RunState :=
  match loadKernelWithPci args.mem args.store { args.config with kernel := data } with
  | .error e => s.goto (.failed e)
  | .ok (store, entry) => s.goto (.loaded data store entry)

def proceed (s : RunState) : Option RunState :=
  match s.phase with
  | .verifierReady => some (s.openFile s!"Failed to read kernel: {args.kernel}" fun inode => .verifying inode [])
  | .verifying inode buf =>
    match (s.files.content inode)[buf.length]? with
    | some b => some (s.goto (.verifying inode (buf ++ [b])))
    | none => some (s.verifyKernel pkg args buf)
  | .verified => some (s.openKernel args)
  | .sized inode len => some (s.goto (.mapped inode len []))
  | .mapped inode len buf =>
    if buf.length < len then
      match mappedByte (s.files.content inode) buf.length with
      | some b => some (s.goto (.mapped inode len (buf ++ [b])))
      | none => some (s.goto (.failed "Bus error"))
    else some (s.goto (.loading buf))
  | .mapFailed => some (s.openFile s!"Failed to read kernel: {args.kernel}" fun inode => .reading inode [])
  | .reading inode buf =>
    match (s.files.content inode)[buf.length]? with
    | some b => some (s.goto (.reading inode (buf ++ [b])))
    | none => some (s.goto (.loading buf))
  | .loading data => some (s.loadKernel args data)
  | .start | .loaded .. | .failed _ => none

def next (s : RunState) : Act → Option RunState
  | .rename target => some { s with files := { s.files with named := target } }
  | .write inode bytes =>
    some { s with files := { s.files with content := Function.update s.files.content inode bytes } }
  | .loadManifest file =>
    match s.phase with
    | .start =>
      match kernelVerifier pkg args file with
      | .ok hash => some { s with expectedHash := some hash, phase := .verifierReady }
      | .error e => some (s.goto (.failed e))
    | _ => none
  | .proceed => s.proceed pkg args
  | .mmapFails =>
    match s.phase with
    | .sized .. => some (s.goto .mapFailed)
    | _ => none
  | .fails error =>
    match s.phase with
    | .loaded .. => none
    | _ => some (s.goto (.failed error))

/-- The bytes that `load_kernel_with_pci` parses and copies, once it has them. -/
def kernelData (s : RunState) : Option (List UInt8) :=
  match s.phase with
  | .loading data => some data
  | .loaded data _ _ => some data
  | _ => none

def FileAsVerified (s : RunState) : Prop :=
  match s.phase with
  | .sized _ len => len = s.checked.length
  | .mapped inode len buf =>
    buf.length < len → mappedByte (s.files.content inode) buf.length = s.checked[buf.length]?
  | .reading inode buf => (s.files.content inode)[buf.length]? = s.checked[buf.length]?
  | _ => True

end RunState

instance (s : RunState) : Decidable s.FileAsVerified :=
  match s with
  | ⟨_, _, _, .sized _ _⟩ | ⟨_, _, _, .reading _ _⟩ => inferInstanceAs (Decidable (_ = _))
  | ⟨_, _, _, .mapped _ _ _⟩ => inferInstanceAs (Decidable (_ < _ → _ = _))
  | ⟨_, _, _, .start⟩ | ⟨_, _, _, .verifierReady⟩ | ⟨_, _, _, .verifying _ _⟩ | ⟨_, _, _, .verified⟩
  | ⟨_, _, _, .mapFailed⟩ | ⟨_, _, _, .loading _⟩ | ⟨_, _, _, .loaded _ _ _⟩ | ⟨_, _, _, .failed _⟩ => .isTrue trivial

def Unchanged (s : RunState) (a : Act) : Prop := a = .proceed → s.FileAsVerified

instance (s : RunState) (a : Act) : Decidable (Unchanged s a) :=
  match a with
  | .proceed => decidable_of_iff s.FileAsVerified ⟨fun h _ => h, fun h => h rfl⟩
  | .rename _ | .write _ _ | .loadManifest _ | .mmapFails | .fails _ => .isTrue nofun

def Step (pkg : Packages) (args : RunArgs) (s : RunState) (a : Act) (t : RunState) : Prop := s.next pkg args a = some t

inductive Moves (pkg : Packages) (s : RunState) : Act → RunState → Prop
  | others (a : Act) (files : Files) (ha : a ≠ .proceed) : Moves pkg s a { s with files := files }
  | fails (a : Act) (error : String) : Moves pkg s a (s.goto (.failed error))
  | manifest (hash : List UInt8) (file : Except String String) (hphase : s.phase = .start) :
    Moves pkg s (.loadManifest file) { s with expectedHash := some hash, phase := .verifierReady }
  | openVerify (inode : Nat) (hphase : s.phase = .verifierReady) : Moves pkg s .proceed (s.goto (.verifying inode []))
  | verify (inode : Nat) (buf : List UInt8) (b : UInt8) (hphase : s.phase = .verifying inode buf) :
    Moves pkg s .proceed (s.goto (.verifying inode (buf ++ [b])))
  | accept (inode : Nat) (buf : List UInt8) (hphase : s.phase = .verifying inode buf)
    (hhash : s.expectedHash = some (pkg.sha256 buf)) :
    Moves pkg s .proceed { s with checked := buf, phase := .verified }
  | openKernel (inode len : Nat) (hphase : s.phase = .verified) : Moves pkg s .proceed (s.goto (.sized inode len))
  | mmap (inode len : Nat) (hphase : s.phase = .sized inode len) : Moves pkg s .proceed (s.goto (.mapped inode len []))
  | copy (inode len : Nat) (buf : List UInt8) (b : UInt8) (hphase : s.phase = .mapped inode len buf)
    (hlen : buf.length < len) (hbyte : mappedByte (s.files.content inode) buf.length = some b) :
    Moves pkg s .proceed (s.goto (.mapped inode len (buf ++ [b])))
  | copied (inode len : Nat) (buf : List UInt8) (hphase : s.phase = .mapped inode len buf)
    (hlen : ¬ buf.length < len) : Moves pkg s .proceed (s.goto (.loading buf))
  | mapFails (inode len : Nat) (hphase : s.phase = .sized inode len) :
    Moves pkg s .mmapFails (s.goto .mapFailed)
  | openRead (inode : Nat) (hphase : s.phase = .mapFailed) : Moves pkg s .proceed (s.goto (.reading inode []))
  | read (inode : Nat) (buf : List UInt8) (b : UInt8) (hphase : s.phase = .reading inode buf)
    (hbyte : (s.files.content inode)[buf.length]? = some b) :
    Moves pkg s .proceed (s.goto (.reading inode (buf ++ [b])))
  | readAll (inode : Nat) (buf : List UInt8) (hphase : s.phase = .reading inode buf)
    (hbyte : (s.files.content inode)[buf.length]? = none) : Moves pkg s .proceed (s.goto (.loading buf))
  | load (data : List UInt8) (store : ByteStore) (entry : Nat) (hphase : s.phase = .loading data) :
    Moves pkg s .proceed (s.goto (.loaded data store entry))

section Runs

variable {pkg : Packages} {args : RunArgs} {s t : RunState} {a : Act}

open RunState

theorem openFile_moves {error : String} {next : Nat → Phase}
    (h : ∀ inode, Moves pkg s .proceed (s.goto (next inode))) : Moves pkg s .proceed (s.openFile error next) := by
  unfold openFile
  cases s.files.named with
  | none => exact .fails _ _
  | some inode => exact h inode

theorem proceed_moves (h : s.proceed pkg args = some t) : Moves pkg s .proceed t := by
  unfold RunState.proceed at h
  split at h
  · next hphase =>
    cases h
    exact openFile_moves fun inode => .openVerify inode hphase
  · next inode buf hphase =>
    split at h
    · cases h
      exact .verify inode buf _ hphase
    · cases h
      unfold verifyKernel
      split
      · next hhash => exact .accept inode buf hphase hhash
      · exact .fails _ _
  · next hphase =>
    cases h
    refine openFile_moves fun inode => ?_
    dsimp only
    split
    · exact .fails _ _
    · exact .openKernel inode _ hphase
  · next inode len hphase =>
    cases h
    exact .mmap inode len hphase
  · next inode len buf hphase =>
    split at h
    · next hlen =>
      split at h
      · next b hbyte =>
        cases h
        exact .copy inode len buf b hphase hlen hbyte
      · cases h
        exact .fails _ _
    · next hlen =>
      cases h
      exact .copied inode len buf hphase hlen
  · next hphase =>
    cases h
    exact openFile_moves fun inode => .openRead inode hphase
  · next inode buf hphase =>
    split at h
    · next b hbyte =>
      cases h
      exact .read inode buf b hphase hbyte
    · next hbyte =>
      cases h
      exact .readAll inode buf hphase hbyte
  · next data hphase =>
    cases h
    unfold loadKernel
    split
    · exact .fails _ _
    · exact .load data _ _ hphase
  · cases h
  · cases h
  · cases h

theorem next_moves (h : s.next pkg args a = some t) : Moves pkg s a t := by
  cases a with
  | rename target =>
    cases h
    exact .others _ _ (by simp)
  | write inode bytes =>
    cases h
    exact .others _ _ (by simp)
  | loadManifest file =>
    dsimp only [RunState.next] at h
    split at h
    · next hphase =>
      split at h
      · cases h
        exact .manifest _ _ hphase
      · cases h
        exact .fails _ _
    · cases h
  | proceed => exact proceed_moves h
  | mmapFails =>
    dsimp only [RunState.next] at h
    split at h
    · next hphase =>
      cases h
      exact .mapFails _ _ hphase
    · cases h
  | fails =>
    dsimp only [RunState.next] at h
    split at h
    · cases h
    · cases h
      exact .fails _ _

namespace RunState

def Accepted (pkg : Packages) (s : RunState) : Prop :=
  match s.phase with
  | .start | .verifierReady | .verifying .. | .failed _ => True
  | _ => s.expectedHash = some (pkg.sha256 s.checked)

def Faithful (s : RunState) : Prop :=
  match s.phase with
  | .mapped _ len buf => len = s.checked.length ∧ buf <+: s.checked
  | .reading _ buf => buf <+: s.checked
  | .loading data => data = s.checked
  | .loaded data _ _ => data = s.checked
  | _ => True

def LeadsTo (checked data : List UInt8) (s : RunState) : Prop :=
  match s.phase with
  | .start | .verifierReady | .verifying .. => True
  | .verified | .mapFailed | .sized .. => s.checked = checked
  | .mapped _ len buf => s.checked = checked ∧ (buf.length ≤ len → data.length = len) ∧ buf <+: data
  | .reading _ buf => s.checked = checked ∧ buf <+: data
  | .loading kernelData => s.checked = checked ∧ kernelData = data
  | .loaded kernelData _ _ => s.checked = checked ∧ kernelData = data
  | .failed _ => False

end RunState

theorem accepted_step (h : Moves pkg s a t) (hs : s.Accepted pkg) : t.Accepted pkg := by
  cases h with
  | accept inode buf hphase hhash => exact hhash
  | _ => simp_all [Accepted, goto]

theorem prefix_snoc {buf data : List UInt8} {b : UInt8} :
    buf ++ [b] <+: data ↔ buf <+: data ∧ data[buf.length]? = some b := by
  constructor
  · rintro ⟨rest, rfl⟩
    simp
  · rintro ⟨⟨rest, rfl⟩, hb⟩
    cases rest with
    | nil => simp at hb
    | cons b' rest =>
      have hb' : b' = b := by simpa using hb
      subst hb'
      exact ⟨rest, by simp⟩

theorem faithful_step (h : Moves pkg s a t) (hfile : Unchanged s a) (hs : s.Faithful) : t.Faithful := by
  cases h with
  | others a files ha => exact hs
  | fails a error => trivial
  | mmap inode len hphase =>
    have hlen := hfile rfl
    simp only [FileAsVerified, hphase] at hlen
    exact ⟨hlen, List.nil_prefix⟩
  | copy inode len buf b hphase hlen hbyte =>
    have hverified := hfile rfl
    simp only [FileAsVerified, hphase, hbyte] at hverified
    simp only [Faithful, hphase] at hs
    exact ⟨hs.1, prefix_snoc.mpr ⟨hs.2, (hverified hlen).symm⟩⟩
  | copied inode len buf hphase hlen =>
    simp only [Faithful, hphase] at hs
    exact hs.2.eq_of_length_le (by omega)
  | openRead inode hphase => exact List.nil_prefix
  | read inode buf b hphase hbyte =>
    have hverified := hfile rfl
    simp only [FileAsVerified, hphase, hbyte] at hverified
    simp only [Faithful, hphase] at hs
    exact prefix_snoc.mpr ⟨hs, hverified.symm⟩
  | readAll inode buf hphase hbyte =>
    have hverified := hfile rfl
    simp only [FileAsVerified, hphase, hbyte] at hverified
    simp only [Faithful, hphase] at hs
    exact hs.eq_of_length_le (List.getElem?_eq_none_iff.mp hverified.symm)
  | load data store entry hphase =>
    simp only [Faithful, hphase] at hs
    exact hs
  | _ => trivial

theorem leadsTo_step {checked data : List UInt8} (h : Moves pkg s a t) (ht : t.LeadsTo checked data) :
    s.LeadsTo checked data ∧ (data = checked → Unchanged s a) := by
  cases h with
  | others a files ha => exact ⟨ht, fun _ hproceed => absurd hproceed ha⟩
  | fails a error => exact ht.elim
  | manifest hash file hphase => simp [LeadsTo, Unchanged, hphase]
  | openVerify inode hphase => simp [LeadsTo, Unchanged, FileAsVerified, hphase]
  | verify inode buf b hphase => simp [LeadsTo, Unchanged, FileAsVerified, hphase]
  | accept inode buf hphase hhash => simp [LeadsTo, Unchanged, FileAsVerified, hphase]
  | openKernel inode len hphase => simpa [LeadsTo, Unchanged, FileAsVerified, hphase, goto] using ht
  | mapFails inode len hphase => simpa [LeadsTo, Unchanged, hphase, goto] using ht
  | openRead inode hphase => simpa [LeadsTo, Unchanged, FileAsVerified, hphase, goto] using ht.1
  | mmap inode len hphase =>
    obtain ⟨hchecked, hlen, -⟩ := ht
    refine ⟨by simpa only [LeadsTo, hphase, goto] using hchecked, fun hdata _ => ?_⟩
    simp only [FileAsVerified, hphase]
    rw [show s.checked = data from hchecked.trans hdata.symm, hlen (Nat.zero_le _)]
  | copy inode len buf b hphase hlen hbyte =>
    obtain ⟨hchecked, hlength, hprefix⟩ := ht
    obtain ⟨hbuf, hb⟩ := prefix_snoc.mp hprefix
    simp only [LeadsTo, Unchanged, FileAsVerified, hphase, hbyte]
    refine ⟨⟨hchecked, fun _ => hlength (by simp; omega), hbuf⟩, fun hdata _ _ => ?_⟩
    rw [show s.checked = data from hchecked.trans hdata.symm, hb]
  | copied inode len buf hphase hlen =>
    obtain ⟨hchecked, rfl⟩ := ht
    simp only [LeadsTo, Unchanged, FileAsVerified, hphase]
    exact ⟨⟨hchecked, fun hle => by omega, List.prefix_rfl⟩, fun _ _ hlt => absurd hlt hlen⟩
  | read inode buf b hphase hbyte =>
    obtain ⟨hchecked, hprefix⟩ := ht
    obtain ⟨hbuf, hb⟩ := prefix_snoc.mp hprefix
    simp only [LeadsTo, Unchanged, FileAsVerified, hphase, hbyte]
    refine ⟨⟨hchecked, hbuf⟩, fun hdata _ => ?_⟩
    rw [show s.checked = data from hchecked.trans hdata.symm, hb]
  | readAll inode buf hphase hbyte =>
    obtain ⟨hchecked, rfl⟩ := ht
    simp only [LeadsTo, Unchanged, FileAsVerified, hphase, hbyte]
    refine ⟨⟨hchecked, List.prefix_rfl⟩, fun hdata _ => ?_⟩
    rw [show s.checked = buf from hchecked.trans hdata.symm, List.getElem?_eq_none (Nat.le_refl _)]
  | load kernelData store entry hphase =>
    obtain ⟨hchecked, rfl⟩ := ht
    simp only [LeadsTo, Unchanged, FileAsVerified, hphase]
    exact ⟨⟨hchecked, trivial⟩, fun _ _ => trivial⟩

theorem kernelData_phase {data : List UInt8} (h : s.kernelData = some data) :
    s.phase = .loading data ∨ ∃ store entry, s.phase = .loaded data store entry := by
  unfold kernelData at h
  split at h
  · next hphase =>
    cases h
    exact .inl hphase
  · next store entry hphase =>
    cases h
    exact .inr ⟨store, entry, hphase⟩
  · cases h

theorem leadsTo_of_kernelData {data : List UInt8} (h : s.kernelData = some data) : s.LeadsTo s.checked data := by
  unfold LeadsTo
  rcases kernelData_phase h with hphase | ⟨store, entry, hphase⟩
  · rw [hphase]
    exact ⟨rfl, rfl⟩
  · rw [hphase]
    exact ⟨rfl, rfl⟩

theorem RunState.Accepted.of_kernelData {data : List UInt8} (hs : s.Accepted pkg) (h : s.kernelData = some data) :
    s.expectedHash = some (pkg.sha256 s.checked) := by
  unfold Accepted at hs
  rcases kernelData_phase h with hphase | ⟨store, entry, hphase⟩
  · rwa [hphase] at hs
  · rwa [hphase] at hs

theorem RunState.Faithful.of_kernelData {data : List UInt8} (hs : s.Faithful) (h : s.kernelData = some data) :
    data = s.checked := by
  unfold Faithful at hs
  rcases kernelData_phase h with hphase | ⟨store, entry, hphase⟩
  · rwa [hphase] at hs
  · rwa [hphase] at hs

theorem steps_accepted {as : List Act} (h : Steps (Step pkg args) s as t) (hs : s.Accepted pkg) : t.Accepted pkg :=
  h.invariant (P := Accepted pkg) (fun _ _ _ hstep => accepted_step (next_moves hstep)) hs

theorem steps_faithful {as : List Act} (h : Steps (fun s a t => Step pkg args s a t ∧ Unchanged s a) s as t)
    (hs : s.Faithful) : t.Faithful :=
  h.invariant (P := Faithful) (fun _ _ _ hstep => faithful_step (next_moves hstep.1) hstep.2) hs

theorem steps_unchanged {as : List Act} {checked : List UInt8} (h : Steps (Step pkg args) s as t)
    (ht : t.LeadsTo checked checked) :
    s.LeadsTo checked checked ∧ Steps (fun s a t => Step pkg args s a t ∧ Unchanged s a) s as t := by
  induction h with
  | nil s => exact ⟨ht, .nil s⟩
  | cons hstep _ ih =>
    obtain ⟨hleads, hrest⟩ := ih ht
    obtain ⟨hleads', hunchanged⟩ := leadsTo_step (next_moves hstep) hleads
    exact ⟨hleads', .cons ⟨hstep, hunchanged rfl⟩ hrest⟩

theorem measuredBoot_iff {files : Files} {as : List Act} {data : List UInt8} (hsha : Function.Injective pkg.sha256)
    (hrun : Steps (Step pkg args) (.start files) as t) (hdata : t.kernelData = some data) :
    t.expectedHash = some (pkg.sha256 data) ↔
      Steps (fun s a t => Step pkg args s a t ∧ Unchanged s a) (.start files) as t := by
  have haccepted : t.Accepted pkg := steps_accepted hrun trivial
  rw [haccepted.of_kernelData hdata, Option.some_inj]
  constructor
  · intro hhash
    have hleads := leadsTo_of_kernelData hdata
    rw [hsha hhash] at hleads
    exact (steps_unchanged hrun hleads).2
  · intro h
    have hfaithful : t.Faithful := steps_faithful h trivial
    rw [hfaithful.of_kernelData hdata]

end Runs

def oneHash : List UInt8 :=
  [75, 245, 18, 47, 52, 69, 84, 197, 59, 222, 46, 187, 140, 210, 183, 227, 209, 96, 10, 214, 49, 195, 133, 165, 215, 204,
    226, 60, 119, 133, 69, 154]

def twoHash : List UInt8 :=
  [219, 193, 180, 201, 0, 255, 228, 141, 87, 91, 93, 165, 198, 56, 4, 1, 37, 246, 93, 176, 254, 62, 36, 73, 75, 118, 234,
    152, 100, 87, 217, 134]

def twoHashes : Equiv.Perm (List UInt8) := (Equiv.swap [1] oneHash).trans (Equiv.swap [2] twoHash)

def manifestText : String :=
  "\x7b\"hashes\": \x7b\"vmlinux\": \"4bf5122f344554c53bde2ebb8cd2b7e3d1600ad631c385a5d7cce23c7785459a\"\x7d," ++
    " \"signature\": \"\"\x7d"

def demoPackages : Packages where
  sha256 := twoHashes
  parseManifest data :=
    if data = manifestText then
      .ok ⟨[("vmlinux", "4bf5122f344554c53bde2ebb8cd2b7e3d1600ad631c385a5d7cce23c7785459a")], ""⟩
    else .error "expected value at line 1 column 1"

def demoArgs : RunArgs where
  kernel := "/boot/vmlinux"
  kernelManifest := "/boot/kernels.json"
  mem := .fromRaw 0
  store _ := 0
  config := ⟨[], none, [], 1, 0, false⟩

def demoFiles : Files := ⟨some 0, fun _ => [1]⟩

def verifiedThen (acts : List Act) : List Act :=
  List.flatten [[.loadManifest (.ok manifestText)], List.replicate 3 .proceed, acts, List.replicate 4 .proceed]

theorem measuredBoot_quiet : ∃ t : RunState, t.kernelData = some [1] ∧ t.expectedHash = some (demoPackages.sha256 [1]) := by
  have hend : (Steps.trace (RunState.next demoPackages demoArgs) Unchanged (.start demoFiles)
      (verifiedThen [.write 1 [2]])).map RunState.kernelData = some (some [1]) := by decide
  obtain ⟨t, hrun, hdata⟩ := Option.map_eq_some_iff.mp hend
  have hsteps := Steps.of_trace hrun
  exact ⟨t, hdata, (measuredBoot_iff twoHashes.injective (hsteps.mono fun _ _ _ h => h.1) hdata).mpr hsteps⟩

theorem measuredBoot_fails :
    ¬ ∀ acts t data, Steps (Step demoPackages demoArgs) (.start demoFiles) acts t → t.kernelData = some data →
      t.expectedHash = some (demoPackages.sha256 data) := by
  intro hmeasured
  have hend : (Steps.trace (RunState.next demoPackages demoArgs) (fun _ _ => True) (.start demoFiles)
      (verifiedThen [.write 0 [2]])).map (fun t => (t.kernelData, t.expectedHash)) =
      some (some [2], some oneHash) := by decide
  obtain ⟨t, hrun, ht⟩ := Option.map_eq_some_iff.mp hend
  rw [Prod.mk.injEq] at ht
  have hhash := hmeasured _ t _ ((Steps.of_trace hrun).mono fun _ _ _ h => h.1) ht.1
  rw [ht.2] at hhash
  exact absurd hhash (by decide)

end CloneVmm.Boot.Measured
