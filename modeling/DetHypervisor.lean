import DetHypervisor.SingleRun
import DetHypervisor.PauseDrain
import DetHypervisor.Deferral
import DetHypervisor.DirtyRing
import DetHypervisor.Verdict
import DetHypervisor.AgendaSplit
import DetHypervisor.ExactLanding
import DetHypervisor.FrameInputs
import DetHypervisor.SegmentBases
import DetHypervisor.Tampering
import DetHypervisor.ConfigIdentity
import DetHypervisor.HashPreimage
import DetHypervisor.Splice
import DetHypervisor.DeltaShipping
import DetHypervisor.ClockConversions
import DetHypervisor.DirtyHarvest
import DetHypervisor.FlatDisk
import DetHypervisor.DeviceVectors
import DetHypervisor.RailRecords
import DetHypervisor.EventStops
import DetHypervisor.FailedAppends
import DetHypervisor.FirstFit
import DetHypervisor.ResealComparison
import DetHypervisor.SnapshotComparison
import DetHypervisor.Preflight
import DetHypervisor.RunCrossings
import DetHypervisor.RunTimes
import DetHypervisor.PauseFlag
import DetHypervisor.Retention
import DetHypervisor.ImageResolver
