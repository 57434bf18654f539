import CoderManager.Results.AccountCleanup
import CoderManager.Results.ConvergenceExclusion
import CoderManager.Results.DatabaseStatistics
import CoderManager.Results.DeploymentRecords
import CoderManager.Results.Diagnostics
import CoderManager.Results.ForeignWorkspaces
import CoderManager.Results.HelmArguments
import CoderManager.Results.InstanceExclusion
import CoderManager.Results.InstanceProgress
import CoderManager.Results.Listings
import CoderManager.Results.LockOrder
import CoderManager.Results.MemberUpdates
import CoderManager.Results.OwnershipChecks
import CoderManager.Results.ParameterResolution
import CoderManager.Results.PoolCapacity
import CoderManager.Results.PublicationRetry
import CoderManager.Results.RemovalChecks
import CoderManager.Results.SharedApplications
import CoderManager.Results.StateObserver
import CoderManager.Results.StoredEnvelopes
import CoderManager.Results.TemplateArchives
import CoderManager.Results.WorkflowOrder
import CoderManager.Results.WorkspaceDeletion
import CoderManager.Results.WorkspaceQuiescence
import CoderManager.Results.WorkspaceRecovery
import CoderManager.Results.WorkspaceStops
