import Pmkit.Archive.Records
import Pmkit.Chain.Canonical
import Pmkit.Chain.Headers
import Pmkit.Chain.Progression
import Pmkit.Chain.Quorum
import Pmkit.Chain.Reorg
import Pmkit.Chain.WalletTotals
import Pmkit.Discovery.Canonical
import Pmkit.Discovery.Gamma
import Pmkit.Discovery.Stopping
import Pmkit.Export.Canonical
import Pmkit.Export.ReplayBundle
import Pmkit.Export.SegmentIds
import Pmkit.Feed.Separation
import Pmkit.Feed.Tasks
import Pmkit.History.ArchiveCache
import Pmkit.History.OrbscanReplays
import Pmkit.Live.Exposure
import Pmkit.Live.Positions
import Pmkit.Live.RateBounds
import Pmkit.Live.Replays
import Pmkit.Live.Restart
import Pmkit.Manifest.Discriminating
import Pmkit.Paper.Crash
import Pmkit.Paper.Damage
import Pmkit.Paper.Failures
import Pmkit.Paper.Solvency
import Pmkit.Paper.Traversal
import Pmkit.Paper.WireJson
import Pmkit.Parity
import Pmkit.Sim.Sizes
import Pmkit.Sim.Walk
import Pmkit.Store.Materializations
import Pmkit.Store.Migrations
import Pmkit.Store.ReconciliationTotal
import Pmkit.Store.StoredEvidence
import Pmkit.Store.TapeFiles
import Pmkit.Tape.CollectorStops
import Pmkit.Tape.SpoolAppends
