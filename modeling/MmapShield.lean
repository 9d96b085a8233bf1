import MmapShield.Computation.Machine
import MmapShield.Computation.Grace
import MmapShield.Model.Error
import MmapShield.Model.Open
import MmapShield.Model.Registry
import MmapShield.Model.Signal
import MmapShield.Model.Process
import MmapShield.Analysis.RegistryMoves
import MmapShield.Analysis.RegistryInvariant
import MmapShield.Analysis.TheoremRegistry
import MmapShield.Analysis.SignalInvariant
import MmapShield.Analysis.TheoremRecovery
import MmapShield.Analysis.TheoremNesting
import MmapShield.Model.Access
import MmapShield.Analysis.TheoremPoison
import MmapShield.Analysis.TheoremReset
import MmapShield.Computation.Total
import MmapShield.Model.Sharing
import MmapShield.Analysis.TheoremAccounting
import MmapShield.Analysis.PrefetchMoves
import MmapShield.Analysis.TheoremPrefetch
import MmapShield.Model.Fallback
import MmapShield.Analysis.TheoremFallback
import MmapShield.Analysis.TheoremRounding
import MmapShield.Model.TimedPrefetch
import MmapShield.Analysis.ProbeLoop
import MmapShield.Analysis.TheoremProbe
import MmapShield.Analysis.TheoremBounds
import MmapShield.Analysis.TheoremPrefetchFault
import MmapShield.Model.Display
import MmapShield.Analysis.TheoremDisplay
import MmapShield.Analysis.TheoremPread
import MmapShield.Analysis.TheoremFrames
import MmapShield.Model.Charging
import MmapShield.Analysis.TheoremCharging
import MmapShield.Computation.Overlay
import MmapShield.Model.Store
import MmapShield.Analysis.TheoremTransparency
import MmapShield.Analysis.TheoremKeys
import MmapShield.Analysis.TheoremDisabling
import MmapShield.Analysis.TheoremReclaim
import MmapShield.Analysis.TheoremProbers
import MmapShield.Computation.Locks
import MmapShield.Model.Locking
import MmapShield.Analysis.TheoremLocks
import MmapShield.Computation.Atomic
import MmapShield.Computation.Simulation
import MmapShield.Model.Clients
import MmapShield.Analysis.TheoremLinear
import MmapShield.Analysis.TheoremProgress
import MmapShield.Analysis.TheoremLedger
import MmapShield.Analysis.TheoremSerial
import MmapShield.Analysis.TheoremWaitFree
import MmapShield.Analysis.TheoremErasure
import MmapShield.Analysis.TheoremInstall
import MmapShield.Analysis.TheoremStates
import MmapShield.Model.Truncation
import MmapShield.Analysis.TheoremTruncation
import MmapShield.Model.Victim
import MmapShield.Analysis.TheoremScan
import MmapShield.Model.Reentry
import MmapShield.Analysis.TheoremReentry
import MmapShield.Analysis.TheoremBurst
import MmapShield.Model.Pinning
import MmapShield.Analysis.TheoremPinning
import MmapShield.Model.Isolation
import MmapShield.Analysis.TheoremIsolation
