import Wbme.TableQuery.TextIdentity
import Wbme.Menu.Rendering
import Wbme.Asset.PendingDisposal
import Wbme.Asset.FifoReturns
import Wbme.Menu.EditorPlaces
import Wbme.Asset.Cancellation
import Wbme.Hr.EligibleEmployees
import Wbme.Coverage
import Wbme.Auth.Credentials
import Wbme.Backstage.LastSuperAdmin
import Wbme.Fin.XlsxWorkerPoolRuns
import Wbme.Fin.Deletion
import Wbme.FixedAsset.RepairStatus
import Wbme.OperationLogs.Export
import Wbme.Tasks.Redelivery
import Wbme.Web.FilterPresets
import Wbme.Web.FilterValidation
import Wbme.Fin.Differences
import Wbme.Menu.SavedSessions
import Wbme.TableQuery.MemorySort
import Wbme.Fin.Export
import Wbme.Backstage.ProfileChanges
import Wbme.Backstage.DingtalkImport
import Wbme.Fin.ImportMatching
import Wbme.Auth.SessionRotation
import Wbme.Auth.LoginProtection
import Wbme.Qr.Runs
import Wbme.Announcements.Publishing
import Wbme.Images.CleanupRuns
import Wbme.Backups.RetentionRuns
import Wbme.Backups.Replays
import Wbme.FixedAsset.KeptReferences
import Wbme.FixedAsset.ChangeRecords
import Wbme.Asset.ResetDays
import Wbme.Logging.ErrorLog
import Wbme.Base.Settings
import Wbme.Asset.ItemCreation
import Wbme.Auth.PhoneSpellings
import Wbme.Fin.GridRow
import Wbme.Base.DingtalkDirectory
import Wbme.Backstage.PermissionCatalog
import Wbme.Web.AppMenu
import Wbme.Hr.Semaphore
import Wbme.TableQuery.RelativeDates
import Wbme.OperationLogs.DepartmentOptions
import Wbme.Hr.UserTitles
import Wbme.Hr.RetriedWrites
import Wbme.Server.RateLimit
import Wbme.Hr.Holiday
import Wbme.Hr.OvertimeReport
import Wbme.Server.ExportLock
import Wbme.IdempotencyRaces
