import Mathlib.Data.Nat.Log
import CloneVmm.Vmm.PhysicalMap

/-!
`pci`: the bus of the devices that are passed through, with the configuration space of each, and
`pci/vfio.rs` as far as the bus uses it. Arithmetic wraps as in a release build.
-/

namespace CloneVmm.Vmm.Pci

open CloneVmm.Lib

structure PciBdf where
  bus : UInt8
  device : UInt8
  function : UInt8
  deriving DecidableEq

structure VfioRegionInfo where
  flags : UInt32
  size : UInt64
  offset : UInt64

structure VfioDevice where
  regions : List VfioRegionInfo
  /-- What was written to the file of the device, and where. -/
  written : List (UInt64 × List UInt8)

abbrev Pread := UInt64 → Nat → Option (List UInt8)

namespace VfioDevice

def configRegionIdx : Nat := 7

def read (pread : Pread) (dev : VfioDevice) (region : Nat) (offset : UInt64) (len : Nat) : Option (List UInt8) :=
  dev.regions[region]?.bind fun r => (pread (r.offset + offset) len).map (·.take len)

def write (dev : VfioDevice) (region : Nat) (offset : UInt64) (data : List UInt8) : VfioDevice :=
  match dev.regions[region]? with
  | none => dev
  | some r => { dev with written := dev.written ++ [(r.offset + offset, data)] }

def configRead (pread : Pread) (dev : VfioDevice) (offset len : Nat) : Option (List UInt8) :=
  dev.read pread configRegionIdx (.ofNat offset) len

def configWrite (dev : VfioDevice) (offset : Nat) (data : List UInt8) : VfioDevice :=
  dev.write configRegionIdx (.ofNat offset) data

def barRead (pread : Pread) (dev : VfioDevice) (barIndex : Nat) (offset : UInt64) (len : Nat) : Option (List UInt8) :=
  dev.read pread barIndex offset len

def barWrite (dev : VfioDevice) (barIndex : Nat) (offset : UInt64) (data : List UInt8) : VfioDevice :=
  dev.write barIndex offset data

end VfioDevice

structure PciBar where
  index : Nat
  guestAddr : UInt64
  size : UInt64
  is64bit : Bool
  prefetchable : Bool
  deriving DecidableEq

namespace PciBar

def contains (bar : PciBar) (addr : UInt64) : Bool := bar.guestAddr ≤ addr && addr < bar.guestAddr + bar.size

def mask (bar : PciBar) : UInt32 := (~~~(bar.size - 1)).toUInt32

def value (bar : PciBar) (written : UInt32) (low : UInt8) : UInt32 :=
  let typeBits := low.toUInt32 &&& 0xF
  if written = 0xFFFFFFFF then bar.mask ||| typeBits else (written &&& bar.mask) ||| typeBits

end PciBar

structure PciDevice where
  bdf : PciBdf
  config : ByteStore
  bars : List PciBar
  vfio : Option VfioDevice

def configSize : Nat := 4096

def barsStart : Nat := 0x10

def barsEnd : Nat := 0x28

namespace PciDevice

def configRead (dev : PciDevice) (off len : Nat) : Nat :=
  if configSize < off + len then 0xFFFFFFFF
  else if len = 1 ∨ len = 2 ∨ len = 4 then leNat (readBytes dev.config off len)
  else 0xFFFFFFFF

def barAt (dev : PciDevice) (off : Nat) : Option PciBar :=
  if barsStart ≤ off ∧ off < barsEnd then dev.bars[(off - barsStart) / 4]? else none

def writeConfig (dev : PciDevice) (off : Nat) (data : List UInt8) : ByteStore :=
  match dev.barAt off with
  | none => writeBytes dev.config off data
  | some bar =>
    if data.length = 4 then
      writeBytes dev.config off (leBytes 4 (bar.value (.ofNat (leNat data)) (dev.config off)).toNat)
    else dev.config

def configWrite (dev : PciDevice) (off : Nat) (data : List UInt8) : PciDevice :=
  if configSize < off + data.length then dev
  else { dev with config := dev.writeConfig off data, vfio := dev.vfio.map fun vfio => vfio.configWrite off data }

end PciDevice

def nextPowerOfTwo (n : UInt64) : UInt64 := .ofNat (2 ^ Nat.clog 2 n.toNat)

def allocBar (mmioNext regionSize : UInt64) : Option UInt64 × UInt64 :=
  let size := nextPowerOfTwo regionSize
  let mmioNext := (mmioNext + size - 1) &&& ~~~(size - 1)
  if mmioNext + size > .ofNat pciMmioEnd then (none, mmioNext) else (some mmioNext, mmioNext + size)

structure Allocation where
  mmioNext : UInt64
  config : ByteStore
  bars : List PciBar

namespace Allocation

def addBar (a : Allocation) (bar : PciBar) (mmioNext : UInt64) : Allocation :=
  let barOffset := barsStart + bar.index * 4
  let barVal :=
    bar.guestAddr.toUInt32 ||| (if bar.is64bit then 0x4 else 0x0) ||| (if bar.prefetchable then 0x8 else 0x0)
  let config := writeBytes a.config barOffset (leBytes 4 barVal.toNat)
  let config :=
    if bar.is64bit ∧ bar.index + 1 < 6 then
      writeBytes config (barOffset + 4) (leBytes 4 (bar.guestAddr >>> 32).toUInt32.toNat)
    else config
  ⟨mmioNext, config, a.bars ++ [bar]⟩

def addRegion (a : Allocation) (i : Nat) (region : VfioRegionInfo) : Allocation :=
  if 6 ≤ i ∨ region.size = 0 then a
  else
    match allocBar a.mmioNext region.size with
    | (none, mmioNext) => { a with mmioNext := mmioNext }
    | (some guestAddr, mmioNext) =>
      a.addBar ⟨i, guestAddr, nextPowerOfTwo region.size, region.flags &&& 0x4 ≠ 0, region.flags &&& 0x8 ≠ 0⟩ mmioNext

def addRegions : Nat → List VfioRegionInfo → Allocation → Allocation
  | _, [], a => a
  | i, region :: regions, a => addRegions (i + 1) regions (a.addRegion i region)

end Allocation

structure PciBus where
  devices : List PciDevice
  ecamBase : UInt64
  mmioNext : UInt64

namespace PciBus

def new : PciBus := ⟨[], .ofNat Boot.ecamBase, .ofNat pciMmioBase⟩

def initialConfig (pread : Pread) (vfioDev : VfioDevice) : ByteStore :=
  writeBytes (fun _ => 0) 0 ((vfioDev.configRead pread 0 256).getD [])

def addVfioDevice (pread : Pread) (bus : PciBus) (vfioDev : VfioDevice) : PciBdf × PciBus :=
  let bdf : PciBdf := ⟨0, .ofNat bus.devices.length, 0⟩
  let a := Allocation.addRegions 0 vfioDev.regions ⟨bus.mmioNext, initialConfig pread vfioDev, []⟩
  (bdf, { bus with devices := bus.devices ++ [⟨bdf, a.config, a.bars, some vfioDev⟩], mmioNext := a.mmioNext })

def inEcam (bus : PciBus) (addr : UInt64) : Bool :=
  !(addr < bus.ecamBase || bus.ecamBase + .ofNat ecamSize ≤ addr)

def ecamDecodeBdf (offset : UInt64) : PciBdf where
  bus := ((offset >>> 20) &&& 0xFF).toUInt8
  device := ((offset >>> 15) &&& 0x1F).toUInt8
  function := ((offset >>> 12) &&& 0x7).toUInt8

def handleEcamRead (bus : PciBus) (addr : UInt64) (data : List UInt8) : Option (List UInt8) :=
  if bus.inEcam addr then
    let offset := addr - bus.ecamBase
    match bus.devices.find? fun dev => dev.bdf = ecamDecodeBdf offset with
    | none => some (List.replicate data.length 0xFF)
    | some dev =>
      if data.length = 1 ∨ data.length = 2 ∨ data.length = 4 then
        some (leBytes data.length (dev.configRead (offset &&& 0xFFF).toNat data.length))
      else some (List.replicate data.length 0xFF)
  else none

def handleEcamWrite (bus : PciBus) (addr : UInt64) (data : List UInt8) : Option PciBus :=
  if bus.inEcam addr then
    let offset := addr - bus.ecamBase
    match bus.devices.findIdx? fun dev => dev.bdf = ecamDecodeBdf offset with
    | none => some bus
    | some k =>
      some { bus with devices := bus.devices.modify k fun dev => dev.configWrite (offset &&& 0xFFF).toNat data }
  else none

def findBar (addr : UInt64) : List PciDevice → Option (Nat × PciBar)
  | [] => none
  | dev :: devices =>
    match dev.bars.find? fun bar => bar.contains addr with
    | some bar => some (0, bar)
    | none => (findBar addr devices).map fun found => (found.1 + 1, found.2)

def handleBarRead (pread : Nat → Pread) (bus : PciBus) (addr : UInt64) (data : List UInt8) : Option (List UInt8) :=
  (findBar addr bus.devices).map fun (k, bar) =>
    match bus.devices[k]?.bind PciDevice.vfio with
    | none => data
    | some vfio =>
      match vfio.barRead (pread k) bar.index (addr - bar.guestAddr) data.length with
      | some readData => readData ++ data.drop readData.length
      | none => List.replicate data.length 0xFF

def handleBarWrite (bus : PciBus) (addr : UInt64) (data : List UInt8) : Option PciBus :=
  (findBar addr bus.devices).map fun (k, bar) =>
    { bus with
      devices := bus.devices.modify k fun dev =>
        { dev with vfio := dev.vfio.map fun vfio => vfio.barWrite bar.index (addr - bar.guestAddr) data } }

end PciBus

end CloneVmm.Vmm.Pci
