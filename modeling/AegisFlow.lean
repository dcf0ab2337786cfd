import AegisFlow.App.CandidateBans
import AegisFlow.App.LoginRequestValidator
import AegisFlow.App.PendingFlush
import AegisFlow.App.PeriodicMaintenance
import AegisFlow.App.ResetBarrier
import AegisFlow.App.RiskService
import AegisFlow.Config.Acceptance
import AegisFlow.Feature.ExpiryQueue
import AegisFlow.Feature.History
import AegisFlow.Feature.IpFailures
import AegisFlow.Feature.WorkerOrder
import AegisFlow.Net.ConnectionLoad
import AegisFlow.Net.DeadlineDelivery
import AegisFlow.Net.EdgeTriggered
import AegisFlow.Net.GracefulDrain
import AegisFlow.Net.MailboxRing
import AegisFlow.Net.SessionLimits
import AegisFlow.Runtime.WorkerThreads
import AegisFlow.Storage.ConnectionHygiene
import AegisFlow.Storage.History
import AegisFlow.Storage.MysqlReplay
import AegisFlow.Timer.HeapBound
import AegisFlow.Tools.ExactlyOnce
