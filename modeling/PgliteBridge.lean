import PgliteBridge.FramerRefinement
import PgliteBridge.DuplexSystem
import PgliteBridge.TransitionSystem
import PgliteBridge.Ownership
import PgliteBridge.DroppedReadyForQuery
import PgliteBridge.Scheduling
import PgliteBridge.Teardown
import PgliteBridge.SubmissionTurns
import PgliteBridge.StatementSafety
import PgliteBridge.SessionLockOrder
import PgliteBridge.TeardownRollback
import PgliteBridge.StatementLeaks
import PgliteBridge.FrontendRefinement
import PgliteBridge.ArrivalOrder
import PgliteBridge.SnapshotCapture
import PgliteBridge.SnapshotRepeat
import PgliteBridge.SnapshotAtomicity
import PgliteBridge.Lru
import PgliteBridge.StatementLru
import PgliteBridge.StatementThrash
import PgliteBridge.DeallocateDecoding
import PgliteBridge.FastQuery
import PgliteBridge.FastQuerySteps
import PgliteBridge.FastQuerySettlement
import PgliteBridge.FastQueryWarm
import PgliteBridge.MigrationLedger
import PgliteBridge.MigrationCalls
import PgliteBridge.MigrationHistory
import PgliteBridge.SubmissionSlot
import PgliteBridge.SubmissionInTurn
import PgliteBridge.SubmissionTimeouts
import PgliteBridge.Responses
import PgliteBridge.CopyExchange
import PgliteBridge.FrontendQueue
import PgliteBridge.FramerReset
import PgliteBridge.RowDescriptionFields
import PgliteBridge.SessionLockCancel
import PgliteBridge.BridgeStats
import PgliteBridge.ServerPrelude
import PgliteBridge.StatementKind
import PgliteBridge.StatementHeads
import PgliteBridge.QueryTrail
import PgliteBridge.QueryTrailRing
import PgliteBridge.FramerTruncation
import PgliteBridge.CopyInGrammar
import PgliteBridge.CopyInScan
import PgliteBridge.CopyInVerdicts
import PgliteBridge.CopyInCases
import PgliteBridge.CopyInExactness
import PgliteBridge.TerminateFinal
import PgliteBridge.ServerSession
import PgliteBridge.ServerCoherence
import PgliteBridge.ServerClosing
import PgliteBridge.ServerLifecycle
import PgliteBridge.PoolAccounting
import PgliteBridge.Progress
import PgliteBridge.Holders
import PgliteBridge.Reading
import PgliteBridge.Settling
import PgliteBridge.Json
import PgliteBridge.JsonRoundTrip
import PgliteBridge.QueryTrailFormat
