import Workflows.Sessionspaces.Convergence
import Workflows.Sessionspaces.Memory
import Workflows.Sessionspaces.Membership
import Workflows.AuthCore.Replay
import Workflows.AuthBroker.Rotation
import Workflows.AuthBroker.Isolation
import Workflows.Auth.Logout
import Workflows.Auth.Redirect
import Workflows.Auth.Daemon
import Workflows.Auth.FailedRefresh
import Workflows.Auth.KeptToken
import Workflows.IdentityMapper.Removal
import Workflows.IdentityMapper.Convergence
import Workflows.IdentityMapper.SupplementalGroups
import Workflows.Events.Sessions
import Workflows.Events.Agreement
import Workflows.GraphProxy.Logs
import Workflows.GraphProxy.References
import Workflows.GraphProxy.Triggers
import Workflows.GraphProxy.ArgumentSchema
import Workflows.GraphProxy.Selection
import Workflows.GraphProxy.ServedUiSchema
import Workflows.Cli.SubmitWorkflow
import Workflows.Frontend.ListView
import Workflows.Frontend.Identifiers
import Workflows.Frontend.TaskTree
import Workflows.Frontend.ScanRangeForm
import Workflows.Frontend.OutputTasks
import Workflows.Frontend.PageHistory
import Workflows.Cli.HelmIntegration
import Workflows.Cli.Linter
import Workflows.Foundations.ExpiringDict
import Workflows.Foundations.JsonMerge
import Workflows.Events.StompServer
import Workflows.Frontend.AuthStatus
import Workflows.Auth.OneShot
import Workflows.Cli.CreatePrompt
import Workflows.Sessionspaces.StaticSessions
import Workflows.Sessionspaces.RequestLog
import Workflows.Auth.Tokens
import Workflows.Auth.Ownership
import Workflows.Foundations.Base64
import Workflows.AuthCore.AccessToken
import Workflows.Frontend.Jwt
import Workflows.Auth.Status
import Workflows.GraphProxy.TriggerAccess
import Workflows.Frontend.FilterDrawer
import Workflows.Frontend.SelectedTasks
import Workflows.Events.EventSourceConfig
import Workflows.Events.EventStream
import Workflows.Frontend.ErrorBoundary
import Workflows.Foundations.Resolution
import Workflows.GraphProxy.ServedWorkflow
import Workflows.Frontend.SubmissionForm
import Workflows.GraphProxy.Authentication
import Workflows.Frontend.TaskInfo
import Workflows.Foundations.FormUrlEncoded
import Workflows.Frontend.TemplatesList
import Workflows.Foundations.FileSystem
import Workflows.Cli.CreateRepository
