import ParallelN64.Replacement.Representation
import ParallelN64.Replacement.OrderedSurface
import ParallelN64.Phrb.Owners
import ParallelN64.Rdp.RingSession
import ParallelN64.Rdp.BatchRun
import ParallelN64.Rdp.TimelineRun
import ParallelN64.Rdp.PendingExtent
import ParallelN64.Rdp.TileLoadParts
import ParallelN64.Rdp.Readback
import ParallelN64.Rdp.TileBound
import ParallelN64.Conversion.Reuse
import ParallelN64.Conversion.Decode
import ParallelN64.Hires.Budget
import ParallelN64.Hires.LowFamily
import ParallelN64.Hires.BindingRun
import ParallelN64.Hires.SampledAgree
import ParallelN64.Hires.GroupCrc
import ParallelN64.Hires.CiPaletteAgree
import ParallelN64.R4300.VideoSchedule
import ParallelN64.R4300.PendingRun
import ParallelN64.Savestate.RoundTrip
import ParallelN64.Dd.BlockTransfer
import ParallelN64.R4300.Unaligned
import ParallelN64.R4300.Multiply
import ParallelN64.R4300.Misses
import ParallelN64.Tlb.Updates
import ParallelN64.R4300.CodeRange
import ParallelN64.R4300.HostFaults
import ParallelN64.R4300.IdleShortcut
import ParallelN64.Cheats.Sessions
import ParallelN64.Cheats.Guards
import ParallelN64.Rsp.JitFresh
import ParallelN64.Rsp.ScalarAgree
import ParallelN64.Rom.Forgets
import ParallelN64.Rom.SwapRom
import ParallelN64.Package.Repackage
import ParallelN64.Review.Duplicates
import ParallelN64.Surfaces.Compiled
import ParallelN64.Migrate.ProxySound
import ParallelN64.Migrate.EvidenceKept
import ParallelN64.Migrate.ReviewMerge
import ParallelN64.Si.PifMemory
import ParallelN64.Si.PifKept
import ParallelN64.Si.PakCrc
import ParallelN64.Ai.Divisors
import ParallelN64.Rsp.SpDmaSymmetric
import ParallelN64.Rsp.RegisterIssue
import ParallelN64.Rdp.FrameBufferCover
import ParallelN64.Dd.DiskPermutation
import ParallelN64.Rsp.VectorPairs
import ParallelN64.Rdp.LoadBlock
import ParallelN64.Conversion.CacheLookup
import ParallelN64.Rsp.VectorPrograms
import ParallelN64.Rdp.CommandPath
