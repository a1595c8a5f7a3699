import Rsap.Proofs.Fencing
import Rsap.Proofs.Attempts
import Rsap.Proofs.CameraOrder
import Rsap.Proofs.Flush
import Rsap.Proofs.Analytics
import Rsap.Proofs.PendingRevocations
import Rsap.Proofs.Authorize
import Rsap.Proofs.Delivery
import Rsap.Proofs.SuperAdmin
import Rsap.Proofs.Peers
import Rsap.Proofs.RefreshReplay
import Rsap.Proofs.StaleRevocation
import Rsap.Proofs.Logout
import Rsap.Proofs.Generations
import Rsap.Proofs.EventConservation
import Rsap.Proofs.Intrusions
import Rsap.Proofs.KalmanFilter
import Rsap.Proofs.CaptureHandles
import Rsap.Proofs.FaceImages
import Rsap.Proofs.Draining
import Rsap.Proofs.ManagerShutdown
import Rsap.Proofs.Reconcile
import Rsap.Proofs.WorkerViews
import Rsap.Proofs.LeasedRows
import Rsap.Proofs.Connections
import Rsap.Proofs.Migrations
import Rsap.Proofs.CameraCreation
import Rsap.Proofs.PurgeSafety
import Rsap.Proofs.SyncFlag
import Rsap.Proofs.PairCoherence
import Rsap.Proofs.FailedLogin
import Rsap.Proofs.AgePruning
import Rsap.Proofs.FrameDelivery
import Rsap.Proofs.PersonExport
import Rsap.Proofs.PeopleCounts
import Rsap.Proofs.ReversedLine
import Rsap.Proofs.FieldEncryption
import Rsap.Proofs.Payloads
import Rsap.Proofs.ZonePolygons
import Rsap.Proofs.Coercions
import Rsap.Proofs.Similarity
import Rsap.Proofs.FilePages
import Rsap.Proofs.TimestampOrder
import Rsap.Proofs.ErrorSummaries
import Rsap.Proofs.FileReplies
import Rsap.Proofs.BucketRace
import Rsap.Proofs.StopOutcome
