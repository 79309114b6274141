import CloneVmm.Lib.Writes
import CloneVmm.Vmm.MemoryMap

/-!
`boot/mod.rs`, `boot/acpi.rs` and `memory/mod.rs`: what `load_kernel_with_pci` writes to guest memory.
None of these functions reads the memory that it writes, so each is the list of its writes in their
order, with an error in the place where it gives up.
-/

namespace CloneVmm.Boot

open CloneVmm.Lib CloneVmm.Vmm

/-- The structures of the layout, the kernel and the initrd. -/
inductive Part
  | cmdline
  | acpi
  | pageTables
  | gdt
  | bootParams
  | kernel
  | initrd
  deriving DecidableEq

structure GuestWrite where
  gpa : Nat
  data : List UInt8

abbrev Action := Except String GuestWrite

def put (gpa : Nat) (data : List UInt8) : Action := .ok ⟨gpa, data⟩

def ascii (s : String) : List UInt8 := s.toUTF8.data.toList

def kernelLoadAddr : Nat := 0x100000

def bootParamsAddr : Nat := 0x7000

def cmdlineAddr : Nat := 0x20000

def rsdpAddr : Nat := 0xE0000

def xsdtAddr : Nat := rsdpAddr + 36

def lapicDefaultAddr : Nat := 0xFEE00000

def ioapicDefaultAddr : Nat := 0xFEC00000

def ecamBase : Nat := 0xB0000000

def withChecksum (pos : Nat) (bytes table : List UInt8) : List UInt8 := table.set pos (0 - bytes.foldl (· + ·) 0)

def tableHeader (signature : String) (totalLen : Nat) (revision : UInt8) : List UInt8 :=
  ascii signature ++ leBytes 4 totalLen ++ [revision, 0] ++ ascii "CLONE " ++ ascii "CLONE   " ++ leBytes 4 1
    ++ ascii "NVM " ++ leBytes 4 1

def summed (table : List UInt8) : List UInt8 := withChecksum 9 table table

def buildMcfg : List UInt8 :=
  summed (tableHeader "MCFG" 60 1 ++ List.replicate 8 0 ++ leBytes 8 ecamBase ++ leBytes 2 0 ++ [0, 0]
    ++ List.replicate 4 0)

def rsdpBody (xsdtAddr : Nat) : List UInt8 :=
  ascii "RSD PTR " ++ [0] ++ ascii "CLONE " ++ [2] ++ List.replicate 4 0 ++ leBytes 4 36 ++ leBytes 8 xsdtAddr
    ++ List.replicate 4 0

def buildRsdp (xsdtAddr : Nat) : List UInt8 :=
  let rsdp := withChecksum 8 ((rsdpBody xsdtAddr).take 20) (rsdpBody xsdtAddr)
  withChecksum 32 rsdp rsdp

def buildXsdt (tableAddrs : List Nat) : List UInt8 :=
  summed (tableHeader "XSDT" (36 + tableAddrs.length * 8) 1 ++ tableAddrs.flatMap (leBytes 8))

def lapicEntry (i : Nat) : List UInt8 := [0, 8, UInt8.ofNat i, UInt8.ofNat i] ++ leBytes 4 1

def ioapicEntry : List UInt8 := [1, 12, 0, 0] ++ leBytes 4 ioapicDefaultAddr ++ leBytes 4 0

def writeIso (bus source : UInt8) (gsi flags : Nat) : List UInt8 :=
  [2, 10, bus, source] ++ leBytes 4 gsi ++ leBytes 2 flags

def isoEntries : List UInt8 :=
  writeIso 0 0 2 0 ++ writeIso 0 5 5 0x000d ++ writeIso 0 9 9 0x000d ++ writeIso 0 10 10 0x000d
    ++ writeIso 0 11 11 0x000d

def lapicNmiEntry : List UInt8 := [4, 6, 0xFF] ++ leBytes 2 0 ++ [1]

def madtLen (numCpus : Nat) : Nat := 44 + numCpus * 8 + 12 + 5 * 10 + 6

def buildMadt (numCpus : Nat) : List UInt8 :=
  summed (tableHeader "APIC" (madtLen numCpus) 4 ++ leBytes 4 lapicDefaultAddr ++ leBytes 4 1
    ++ (List.range numCpus).flatMap lapicEntry ++ ioapicEntry ++ isoEntries ++ lapicNmiEntry)

def setupAcpiTablesWithPci (numCpus : Nat) (pciEnabled : Bool) : List Action :=
  let madt := buildMadt numCpus
  if pciEnabled then
    let madtAddr := xsdtAddr + 56
    let mcfgAddr := madtAddr + madt.length + 8
    [put rsdpAddr (buildRsdp xsdtAddr), put xsdtAddr (buildXsdt [madtAddr, mcfgAddr]), put madtAddr madt,
      put mcfgAddr buildMcfg]
  else
    let madtAddr := xsdtAddr + 52
    [put rsdpAddr (buildRsdp xsdtAddr), put xsdtAddr (buildXsdt [madtAddr]), put madtAddr madt]

def pml4Addr : Nat := 0x9000

def pdptAddr : Nat := 0xA000

def pdBase : Nat := 0x10000

def numGb (memSize : Nat) : Nat := min (max ((memSize + 2 ^ 30 - 1) >>> 30) 1) 64

def pdEntry (gb i : Nat) : Nat := gb <<< 30 ||| i <<< 21 ||| 0x83

def pdWrites (gb : Nat) : List Action :=
  (List.range 512).map fun i => put (pdBase + gb * 0x1000 + i * 8) (leBytes 8 (pdEntry gb i))

def setupPageTables (memSize : Nat) : List Action :=
  put pml4Addr (leBytes 8 (pdptAddr ||| 0x3)) :: (List.range (numGb memSize)).flatMap fun gb =>
    put (pdptAddr + gb * 8) (leBytes 8 (pdBase + gb * 0x1000 ||| 0x3)) :: pdWrites gb

def gdtAddr : Nat := 0x500

def gdt : List Nat := [0, 0, 0x00AF9B000000FFFF, 0x00CF93000000FFFF]

def setupGdt : List Action := gdt.zipIdx.map fun (entry, i) => put (gdtAddr + i * 8) (leBytes 8 entry)

inductive E820Type
  | ram
  | reserved
  deriving DecidableEq

def E820Type.code : E820Type → Nat
  | ram => 1
  | reserved => 2

structure E820Entry where
  addr : Nat
  size : Nat
  type : E820Type

def isBzimage (data : List UInt8) : Bool :=
  if data.length > 0x206 then (data.drop 0x202).take 4 == ascii "HdrS" else false

def u64Sub (a b : Nat) : Nat := (a + 2 ^ 64 - b) % 2 ^ 64

def reservedTop : Nat := 0x20000

def e820Ram (ramSize : Nat) : List E820Entry :=
  if ramSize ≤ mmioHoleStart then
    let ramEnd := u64Sub ramSize reservedTop
    [⟨0x100000, u64Sub ramEnd 0x100000, .ram⟩, ⟨ramEnd, reservedTop, .reserved⟩]
  else [⟨0x100000, mmioHoleStart - 0x100000, .ram⟩, ⟨mmioHoleEnd, ramSize - mmioHoleStart, .ram⟩]

def e820 (ramSize : Nat) : List E820Entry :=
  [⟨0, 0x9FC00, .ram⟩, ⟨0x9FC00, 0x400, .reserved⟩, ⟨0xF0000, 0x10000, .reserved⟩] ++ e820Ram ramSize
    ++ [⟨0xFEFFC000, 0x4000, .reserved⟩, ⟨0xFFFC0000, 0x40000, .reserved⟩]

def bpE820Entries : Nat := 0x1E8

def bpE820Table : Nat := 0x2D0

def bpHeapEndPtr : Nat := 0x224

def bpCmdLinePtr : Nat := 0x228

def e820Writes (entries : List E820Entry) : List Action :=
  entries.zipIdx.flatMap fun (entry, i) =>
    let offset := bpE820Table + i * 20
    [put (bootParamsAddr + offset) (leBytes 8 entry.addr), put (bootParamsAddr + offset + 8) (leBytes 8 entry.size),
      put (bootParamsAddr + offset + 16) (leBytes 4 entry.type.code)]

def setupSects (data : List UInt8) : Nat :=
  let n := (data[0x1F1]?.getD 0).toNat
  if n = 0 then 4 else n

def setupSize (data : List UInt8) : Nat := (setupSects data + 1) * 512

def headerStart : Nat := 0x1F1

def headerEnd (data : List UInt8) : Nat := min (min (setupSize data) data.length) 4096

def bzimageBootParams (data : List UInt8) (ramSize : Nat) : List Action :=
  [put bootParamsAddr (List.replicate 4096 0)]
    ++ (if headerEnd data > headerStart then
        [put (bootParamsAddr + headerStart) ((data.take (headerEnd data)).drop headerStart)]
      else [])
    ++ [put (bootParamsAddr + bpCmdLinePtr) (leBytes 4 cmdlineAddr), put (bootParamsAddr + 0x210) [0xFF],
      put (bootParamsAddr + 0x211) [0x81], put (bootParamsAddr + bpHeapEndPtr) (leBytes 2 0xFE00),
      put (bootParamsAddr + bpE820Entries) [UInt8.ofNat (e820 ramSize).length]]
    ++ e820Writes (e820 ramSize)

def owned (part : Part) (actions : List Action) : List (Part × Action) := actions.map fun a => (part, a)

def loadBzimage (data : List UInt8) (ramSize : Nat) : List (Part × Action) × Nat :=
  if setupSize data ≥ data.length then
    ([(.kernel, .error s!"Invalid bzImage: setup_size ({setupSize data}) >= file size ({data.length})")], 0)
  else
    (owned .bootParams (bzimageBootParams data ramSize)
      ++ [(.kernel, put kernelLoadAddr (data.drop (setupSize data)))], kernelLoadAddr + 0x200)

def slice (bytes : List UInt8) (start n : Nat) : List UInt8 := (bytes.drop start).take n

theorem slice_length {bytes : List UInt8} {start n : Nat} (h : start + n ≤ bytes.length) :
    (slice bytes start n).length = n := by
  rw [slice, List.length_take, List.length_drop]
  omega

def elfMagic : List UInt8 := 0x7f :: ascii "ELF"

def loadSegment (data : List UInt8) (start : Nat) : Option Action :=
  let ph := data.drop start
  if data.length < start ∨ ph.length < 4 then some (.error "index out of range")
  else if leNat (ph.take 4) ≠ 1 then none
  else if ph.length < 40 then some (.error "index out of range")
  else
    let pOffset := leNat (slice ph 8 8)
    let pPaddr := leNat (slice ph 24 8)
    let pFilesz := leNat (slice ph 32 8)
    let segmentEnd := (pOffset + pFilesz) % 2 ^ 64
    if 0 < pFilesz ∧ segmentEnd ≤ data.length then
      if segmentEnd < pOffset then some (.error "index out of range")
      else some (put pPaddr (slice data pOffset pFilesz))
    else none

def loadElf (data : List UInt8) : List (Part × Action) × Nat :=
  if data.length < 64 ∨ data.take 4 ≠ elfMagic then ([(.kernel, .error "Not a valid ELF file")], 0)
  else
    let entry := leNat (slice data 24 8)
    let phoff := leNat (slice data 32 8)
    let phentsize := leNat (slice data 54 2)
    let phnum := leNat (slice data 56 2)
    (owned .kernel ((List.range phnum).filterMap fun i => loadSegment data ((phoff + i * phentsize) % 2 ^ 64)), entry)

def initrdTop (mem : GuestMem) : Nat := if mem.hasHole then mem.holeStart else mem.size

def initrdAddr (mem : GuestMem) (data : List UInt8) : Nat := u64Sub (initrdTop mem) data.length / 4096 * 4096

def loadInitrd (mem : GuestMem) (data : List UInt8) : List (Part × Action) :=
  let addr := initrdAddr mem data
  let initrdHi := addr >>> 32
  [(.initrd, put addr data), (.bootParams, put (bootParamsAddr + 0x218) (leBytes 4 addr)),
    (.bootParams, put (bootParamsAddr + 0x21C) (leBytes 4 data.length))]
    ++ (if initrdHi > 0 then [(.bootParams, put (bootParamsAddr + 0x0C0) (leBytes 4 initrdHi))] else [])

structure LoadConfig where
  kernel : List UInt8
  initrd : Option (List UInt8)
  cmdline : List UInt8
  numCpus : Nat
  ramSize : Nat
  pciEnabled : Bool

namespace LoadConfig

variable (c : LoadConfig)

def cmdlineWrites : List Action := [put cmdlineAddr c.cmdline, put (cmdlineAddr + c.cmdline.length) [0]]

def kernelActions : List (Part × Action) × Nat :=
  if isBzimage c.kernel then loadBzimage c.kernel c.ramSize else loadElf c.kernel

def initrdActions (mem : GuestMem) : List (Part × Action) := (c.initrd.map (loadInitrd mem)).getD []

def actions (mem : GuestMem) : List (Part × Action) :=
  owned .cmdline c.cmdlineWrites ++ owned .acpi (setupAcpiTablesWithPci c.numCpus c.pciEnabled)
    ++ owned .pageTables (setupPageTables c.ramSize) ++ owned .gdt setupGdt ++ c.kernelActions.1 ++ c.initrdActions mem

end LoadConfig

def writeAt (mem : GuestMem) (store : ByteStore) (gpa : Nat) (data : List UInt8) : Except String ByteStore := do
  let offset ← mem.gpaToOffset gpa
  if offset + data.length > mem.size then
    throw s!"Write at GPA {hex gpa} + {data.length} exceeds memory"
  return writeBytes store offset data

def perform (mem : GuestMem) (store : ByteStore) : Action → Except String ByteStore
  | .ok w => writeAt mem store w.gpa w.data
  | .error e => .error e

def performAll (mem : GuestMem) (store : ByteStore) (actions : List (Part × Action)) : Except String ByteStore :=
  actions.foldlM (fun store a => perform mem store a.2) store

def loadKernelWithPci (mem : GuestMem) (store : ByteStore) (c : LoadConfig) : Except String (ByteStore × Nat) := do
  let store ← performAll mem store (c.actions mem)
  return (store, c.kernelActions.2)

end CloneVmm.Boot
