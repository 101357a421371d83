import Libpop.Execution
import Libpop.Loop
import Libpop.Word
import Libpop.Stride
import Libpop.AccessTrace
import Libpop.Scan
import Libpop.Kmod
import Libpop.Proofs.IoctlExits
import Libpop.Proofs.PciReferences
import Libpop.Proofs.RegistrationReport
import Libpop.Proofs.P2pmemBlocks
import Libpop.PopDevice
import Libpop.Proofs.DeviceLifetime
import Libpop.Proofs.DeviceMapping
import Libpop.Bump
import Libpop.Mem
import Libpop.Proofs.BufferAllocation
import Libpop.Circular
import Libpop.Nvgen
import Libpop.Proofs.HugepageTranslation
import Libpop.Proofs.NvmeReads
import Libpop.Proofs.SlotRing
import Libpop.Buf
import Libpop.Proofs.BufferWindow
import Libpop.Context
import Libpop.Proofs.SlotNames
import Libpop.Proofs.ContextAccounts
import Libpop.Proofs.DeviceTranslation
import Libpop.Generator
import Libpop.GeneratorIo
import Libpop.Proofs.LbaWalks
import Libpop.Proofs.NvgenWalk
import Libpop.Bench
import Libpop.Proofs.BenchRanges
import Libpop.Store
import Libpop.Proofs.StoredFrames
import Libpop.Proofs.StoreWalk
import Libpop.Proofs.RingFill
import Libpop.Proofs.GeneratorArrays
import Libpop.Proofs.PollDiscipline
import Libpop.Proofs.StorageFormat
import Libpop.Proofs.GeneratorWalk
import Libpop.Proofs.RandomRange
import Libpop.Transmit
import Libpop.Proofs.NicQueue
import Libpop.Proofs.ZeroCopy
import Libpop.Loading
import Libpop.Proofs.LoadedSlots
import Libpop.AllocLock
import Libpop.Proofs.AllocTermination
import Libpop.Proofs.TranslationDomain
import Libpop.Proofs.PagemapFailures
import Libpop.Proofs.HugepageCapacity
import Libpop.Proofs.StorePass
import Libpop.RxRing
import Libpop.Proofs.RingDrain
import Libpop.Proofs.RxRings
import Libpop.OnesComplement
import Libpop.Nmgen
import Libpop.Proofs.Checksum
import Libpop.Proofs.IpChecksum
import Libpop.Proofs.NmgenFrames
import Libpop.Exchange
import Libpop.Mb
import Libpop.Proofs.MbSamples
import Libpop.Proofs.MbCopies
import Libpop.NvgenMain
import Libpop.Proofs.Shutdown
import Libpop.Wire
import Libpop.Proofs.DiskToWire
import Libpop.Table
import Libpop.Proofs.AllocLinear
import Libpop.Descriptors
import Libpop.NmgenSend
import Libpop.Proofs.NmgenTransmit
import Libpop.KmodCalls
import Libpop.Proofs.ConcurrentIoctls
import Libpop.Proofs.StoredToWire
import Libpop.BenchMain
import Libpop.Proofs.BenchTransfers
import Libpop.Sampling
import Libpop.Proofs.BenchReports
import Libpop.Proofs.BenchShutdown
import Libpop.Receive
import Libpop.Proofs.ReceivePath
import Libpop.NmgenMain
import Libpop.Proofs.NmgenExit
import Libpop.CommandLine
import Libpop.Options
import Libpop.Proofs.OptionParsers
import Libpop.GeneratorSend
import Libpop.Proofs.GeneratorWire
import Libpop.Proofs.StoredToGenerator
import Libpop.Proofs.DeviceIsolation
import Libpop.GeneratorMain
import Libpop.Proofs.GeneratorExit
