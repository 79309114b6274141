import CloneVmm.Boot.Acpi
import CloneVmm.Boot.Chain
import CloneVmm.Boot.ChainHistory
import CloneVmm.Boot.Compact
import CloneVmm.Boot.Compaction
import CloneVmm.Boot.DiffData
import CloneVmm.Boot.ElfLoad
import CloneVmm.Boot.GcSnapshots
import CloneVmm.Boot.Identity
import CloneVmm.Boot.IdentityAddress
import CloneVmm.Boot.Initrd
import CloneVmm.Boot.InitrdPlacement
import CloneVmm.Boot.KernelHash
import CloneVmm.Boot.KernelLayout
import CloneVmm.Boot.LoadKernel
import CloneVmm.Boot.Measured
import CloneVmm.Boot.Paging
import CloneVmm.Boot.Repository
import CloneVmm.Boot.Snapshot
import CloneVmm.Control.Daemon
import CloneVmm.Control.IncrementalSnapshot
import CloneVmm.Control.Jailer
import CloneVmm.Control.Pause
import CloneVmm.Control.Protocol
import CloneVmm.Control.RoundTrip
import CloneVmm.Control.RunState
import CloneVmm.Control.Save
import CloneVmm.Control.Status
import CloneVmm.Control.StuckVcpu
import CloneVmm.Control.VmHandle
import CloneVmm.Controller.Accounts
import CloneVmm.Controller.CompleteSave
import CloneVmm.Controller.FullMemory
import CloneVmm.Controller.HealthCount
import CloneVmm.Controller.IdleReclaim
import CloneVmm.Controller.LostUpdates
import CloneVmm.Controller.OneVm
import CloneVmm.Controller.Persist
import CloneVmm.Controller.Tasks
import CloneVmm.Controller.Tenants
import CloneVmm.Lib.Bytes
import CloneVmm.Lib.CacheFill
import CloneVmm.Lib.ClassicBpf
import CloneVmm.Lib.Fifo
import CloneVmm.Lib.FileTree
import CloneVmm.Lib.HostFile
import CloneVmm.Lib.Interleaving
import CloneVmm.Lib.Json
import CloneVmm.Lib.JsonSize
import CloneVmm.Lib.JsonText
import CloneVmm.Lib.Loop
import CloneVmm.Lib.Newc
import CloneVmm.Lib.PathBuf
import CloneVmm.Lib.Placement
import CloneVmm.Lib.Prog
import CloneVmm.Lib.Run
import CloneVmm.Lib.Settings
import CloneVmm.Lib.Simulation
import CloneVmm.Lib.Text
import CloneVmm.Lib.Utf8Lossy
import CloneVmm.Lib.Writes
import CloneVmm.Memory.Balloon
import CloneVmm.Memory.BalloonRuns
import CloneVmm.Memory.DirtyLog
import CloneVmm.Memory.GuestRanges
import CloneVmm.Migration.Delivered
import CloneVmm.Migration.Equality
import CloneVmm.Migration.Invariant
import CloneVmm.Migration.Precopy
import CloneVmm.Migration.Receiver
import CloneVmm.Migration.Transfer
import CloneVmm.Migration.Wire
import CloneVmm.Net.GuestCmdline
import CloneVmm.Net.GuestIp
import CloneVmm.Storage.Allocation
import CloneVmm.Storage.Backing
import CloneVmm.Storage.CacheBound
import CloneVmm.Storage.CacheCoherence
import CloneVmm.Storage.Coverage
import CloneVmm.Storage.Create
import CloneVmm.Storage.CreateLayout
import CloneVmm.Storage.FlatDisk
import CloneVmm.Storage.Flush
import CloneVmm.Storage.Growth
import CloneVmm.Storage.HeaderRoundTrip
import CloneVmm.Storage.Killed
import CloneVmm.Storage.L2Cache
import CloneVmm.Storage.Lag
import CloneVmm.Storage.Layout
import CloneVmm.Storage.Mapping
import CloneVmm.Storage.Mirror
import CloneVmm.Storage.Overlay
import CloneVmm.Storage.Qcow2
import CloneVmm.Storage.Qcow2Header
import CloneVmm.Storage.Recording
import CloneVmm.Storage.RefcountTable
import CloneVmm.Storage.Refcounts
import CloneVmm.Storage.Refinement
import CloneVmm.Storage.Relocation
import CloneVmm.Storage.Reopen
import CloneVmm.Storage.Stable
import CloneVmm.Virtio.Alike
import CloneVmm.Virtio.Balloon
import CloneVmm.Virtio.Block
import CloneVmm.Virtio.BlockAddressing
import CloneVmm.Virtio.BlockBounds
import CloneVmm.Virtio.BlockDevice
import CloneVmm.Virtio.BlockRequests
import CloneVmm.Virtio.BlockSession
import CloneVmm.Virtio.BlockSnapshot
import CloneVmm.Virtio.BlockStatus
import CloneVmm.Virtio.Confinement
import CloneVmm.Virtio.Features
import CloneVmm.Virtio.Framing
import CloneVmm.Virtio.Fs
import CloneVmm.Virtio.FsChain
import CloneVmm.Virtio.Fuse
import CloneVmm.Virtio.Inodes
import CloneVmm.Virtio.Interrupts
import CloneVmm.Virtio.Lossless
import CloneVmm.Virtio.Mmio
import CloneVmm.Virtio.Net
import CloneVmm.Virtio.NetAgreement
import CloneVmm.Virtio.NetInbound
import CloneVmm.Virtio.NetOutbound
import CloneVmm.Virtio.NetReceive
import CloneVmm.Virtio.PrivateWalks
import CloneVmm.Virtio.Queue
import CloneVmm.Virtio.QueueLoop
import CloneVmm.Virtio.QueueSize
import CloneVmm.Virtio.RawQueue
import CloneVmm.Virtio.Readdir
import CloneVmm.Virtio.Reset
import CloneVmm.Virtio.Restore
import CloneVmm.Virtio.Resume
import CloneVmm.Virtio.RingDriver
import CloneVmm.Virtio.Rings
import CloneVmm.Virtio.SafePaths
import CloneVmm.Virtio.TransportJson
import CloneVmm.Virtio.TransportRuns
import CloneVmm.Virtio.Vsock
import CloneVmm.Virtio.VsockCredit
import CloneVmm.Virtio.VsockSession
import CloneVmm.Virtio.VsockSignals
import CloneVmm.Virtio.VsockStreams
import CloneVmm.Virtio.WriteDirection
import CloneVmm.Vmm.AgentFraming
import CloneVmm.Vmm.AgentListener
import CloneVmm.Vmm.Devices
import CloneVmm.Vmm.EdgeInterrupts
import CloneVmm.Vmm.ExecMessages
import CloneVmm.Vmm.ExecPairing
import CloneVmm.Vmm.ExecPipes
import CloneVmm.Vmm.Irqs
import CloneVmm.Vmm.MemoryMap
import CloneVmm.Vmm.Passthrough
import CloneVmm.Vmm.Pci
import CloneVmm.Vmm.PciAllocation
import CloneVmm.Vmm.PciBars
import CloneVmm.Vmm.PciRegisters
import CloneVmm.Vmm.PhysicalMap
import CloneVmm.Vmm.Resume
import CloneVmm.Vmm.RunLoop
import CloneVmm.Vmm.Serial
import CloneVmm.Vmm.SerialRuns
import CloneVmm.Vmm.VcpuRestore
import CloneVmm.Vmm.VcpuTemplate
