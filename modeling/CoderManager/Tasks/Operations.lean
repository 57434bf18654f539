import CoderManager.Tasks.TemplateTransactions

/-!
# Atomic operations of a worker

A worker body is a sequence of transactions on the database and of requests to
other systems. Each is one operation here. `Query` reads the database,
`Transaction` writes it and `Call` leaves it alone.
-/
namespace CoderManager

/-- The `mutate` callbacks the step bodies pass to the execution helpers. -/
inductive Mutation where
  | none
  | storeApplicationName (applicationName : String) (missing : WorkerError)
  | promotePassword
  | markStopped
  | markCreated
  | failMembers (memberIds : List UUID)
  | deferMembers (memberIds : List UUID)
  | convergeWorkspace (workspaceId buildId : Option UUID) (applyParameters : Bool)
  deriving DecidableEq, Repr

namespace Mutation

def onInstance (job : JobExecution) (s : Store) (missing : WorkerError)
    (f : Instance → Except WorkerError Instance) : Except WorkerError Store := do
  let (id, i) ← found (s.ownedInstance job) missing
  let i ← f i
  return { s with instances := s.instances.modify id fun _ => i }

/-- `_promote_password`. -/
def promote (i : Instance) : Except WorkerError Instance :=
  match i.passwordEnc, i.passwordCandidateEnc with
  | some password, _ => .ok { i with passwordEnc := some password, passwordCandidateEnc := .none }
  | .none, some candidate =>
      .ok { i with passwordEnc := some candidate, passwordCandidateEnc := .none }
  | .none, .none =>
      .error (.runtimeError "Instance administrator password candidate is missing")

def apply : Mutation → Mutate
  | .none, _, s => .ok s
  | .storeApplicationName applicationName missing, job, s =>
      onInstance job s missing fun i =>
        .ok { i with argocdApplicationName := some applicationName, state := .started }
  | .promotePassword, job, s => onInstance job s (.typeError "Instance is missing") promote
  | .markStopped, job, s =>
      onInstance job s (.typeError "Instance is missing") fun i => .ok { i with state := .stopped }
  | .markCreated, job, s =>
      match job.resourceType, job.resourceId with
      | some .templateAssignment, some id =>
          .ok (s.modifyLifecycle .templateAssignment id fun r => { r with action := .created })
      | _, _ => .error (.typeError "Template assignment is missing")
  | .failMembers memberIds, _, s => .ok (s.releaseMembers memberIds .error)
  | .deferMembers memberIds, _, s => .ok (s.releaseMembers memberIds .pending)
  | .convergeWorkspace workspaceId buildId applyParameters, job, s =>
      match job.resourceType, job.resourceId with
      | some .workspace, some id =>
          let workspaces := s.workspaces.modify id fun w => { w with
            coderWorkspaceId := workspaceId <|> w.coderWorkspaceId
            coderWorkspaceBuildId := buildId <|> w.coderWorkspaceBuildId
            appliedParametersRevision :=
              if applyParameters then some w.parametersRevision else w.appliedParametersRevision }
          .ok { s with workspaces }
      | _, _ => .ok s

end Mutation

/-- Reads of the database. -/
inductive Query : Type → Type where
  | now : Query Time
  | retryableJobIds (staleBefore : Time) : Query (List UUID)
  | managedDatabaseTarget (instanceId : UUID) : Query (Option (SchemaTarget × String))
  | storedKubeconfig (instanceId : UUID) : Query (Option String)
  | instanceSnapshot (resourceId : Option UUID) (missing : WorkerError) : Query InstanceSnapshot
  | storedAdminPassword (instanceId : UUID) : Query (Option (InstanceUrl × String))
  | observedInstances : Query (List InstanceStateSnapshot)
  | templateSourceSnapshot (templateId : UUID) : Query TemplateSourceSnapshot
  | assignmentTemplateId (assignmentId : UUID) : Query UUID
  | stableAssignmentIds (templateId : UUID) : Query (List UUID)
  | removalSnapshot (assignmentId : UUID) : Query TemplateRemovalSnapshot
  | workspaceRemoteSnapshot (workspaceId : UUID) : Query WorkspaceRemoteSnapshot

/-- Writes of the database. -/
inductive Transaction : Type → Type where
  | claimExecution (jobId : UUID) (taskName : TaskName) : Transaction (Option ExecutionClaim)
  | heartbeatExecution (claim : ExecutionClaim) : Transaction Bool
  | advanceExecution (claim : ExecutionClaim) (nextTaskName : TaskName) (nextStep : StepName)
      (mutate : Mutation) : Transaction Bool
  | completeExecution (claim : ExecutionClaim) (mutate : Mutation) (deleteResource : Bool) :
      Transaction Bool
  | deferExecution (claim : ExecutionClaim) (mutate : Mutation) : Transaction Bool
  | failExecution (claim : ExecutionClaim) (mutate : Mutation) : Transaction Unit
  | prepareExecutionRetry (jobId : UUID) (staleBefore : Time) : Transaction (Option TaskName)
  | prepareBootstrap (claim : ExecutionClaim) : Transaction (Option BootstrapPreparation)
  | claimMembers (claim : ExecutionClaim) : Transaction ClaimedMembers
  | claimCleanup (claim : ExecutionClaim) : Transaction ClaimedCleanup
  | finalizeUpdate (claim : ExecutionClaim) (memberIds : List UUID) (applicationName : String) :
      Transaction Store.UpdateResult
  | storeStartedApplication (claim : ExecutionClaim) (applicationName : Option String) :
      Transaction Bool
  | removeLocalConfiguration (claim : ExecutionClaim) : Transaction Bool
  | recordInstanceState (snapshot : InstanceStateSnapshot) (observed : InstanceState) :
      Transaction Bool
  | prepareDeployment (claim : ExecutionClaim) (assignmentId templateId : UUID) (commit : String)
      (revision : Nat) : Transaction TemplateDeploymentPreparation
  | storeTemplateRemoteIds (claim : ExecutionClaim) (assignmentId : UUID)
      (organizationId coderTemplateId coderTemplateVersionId : Option UUID) : Transaction Unit
  | finishDeployment (claim : ExecutionClaim) (assignmentId : UUID) (commit : String)
      (revision : Nat) (success : Bool) : Transaction Unit
  | removeLocalAssignment (claim : ExecutionClaim) (snapshot : TemplateRemovalSnapshot) :
      Transaction Bool
  | storeWorkspaceRemoteIds (claim : ExecutionClaim) (workspaceId buildId : UUID) :
      Transaction Bool

namespace Store

def answer (s : Store) : {β : Type} → Query β → Except WorkerError β
  | _, .now => .ok s.now
  | _, .retryableJobIds staleBefore => .ok (s.retryableJobIds staleBefore)
  | _, .managedDatabaseTarget instanceId => s.managedDatabaseTarget instanceId
  | _, .storedKubeconfig instanceId => s.storedKubeconfig instanceId
  | _, .instanceSnapshot resourceId missing => s.instanceSnapshot resourceId missing
  | _, .storedAdminPassword instanceId => s.storedAdminPassword instanceId
  | _, .observedInstances => .ok s.observedInstances
  | _, .templateSourceSnapshot templateId => s.templateSourceSnapshot templateId
  | _, .assignmentTemplateId assignmentId => s.assignmentTemplateId assignmentId
  | _, .stableAssignmentIds templateId => s.stableAssignmentIds templateId
  | _, .removalSnapshot assignmentId => s.removalSnapshot assignmentId
  | _, .workspaceRemoteSnapshot workspaceId => s.workspaceRemoteSnapshot workspaceId

/-- Run one transaction; `token` is the random text it may draw. -/
def transact (s : Store) (token : String) :
    {β : Type} → Transaction β → Except WorkerError (β × Store)
  | _, .claimExecution jobId taskName => .ok (s.claimExecution jobId taskName)
  | _, .heartbeatExecution claim => .ok (s.heartbeatExecution claim)
  | _, .advanceExecution claim task step mutate => s.advanceExecution claim task step mutate.apply
  | _, .completeExecution claim mutate delete => s.completeExecution claim mutate.apply delete
  | _, .deferExecution claim mutate => s.deferExecution claim mutate.apply
  | _, .failExecution claim mutate => do return ((), ← s.failExecution claim mutate.apply)
  | _, .prepareExecutionRetry jobId staleBefore => .ok (s.prepareExecutionRetry jobId staleBefore)
  | _, .prepareBootstrap claim => s.prepareBootstrap claim token
  | _, .claimMembers claim => s.claimMembers claim
  | _, .claimCleanup claim => s.claimCleanup claim
  | _, .finalizeUpdate claim memberIds applicationName =>
      s.finalizeUpdate claim memberIds applicationName
  | _, .storeStartedApplication claim applicationName =>
      s.storeStartedApplication claim applicationName
  | _, .removeLocalConfiguration claim => s.removeLocalConfiguration claim
  | _, .recordInstanceState snapshot observed => .ok (s.recordInstanceState snapshot observed)
  | _, .prepareDeployment claim assignmentId templateId commit revision =>
      s.prepareDeployment claim assignmentId templateId commit revision
  | _, .storeTemplateRemoteIds claim assignmentId organizationId templateId versionId => do
      return ((), ← s.storeTemplateRemoteIds claim assignmentId organizationId templateId versionId)
  | _, .finishDeployment claim assignmentId commit revision success => do
      return ((), ← s.finishDeployment claim assignmentId commit revision success)
  | _, .removeLocalAssignment claim snapshot => s.removeLocalAssignment claim snapshot
  | _, .storeWorkspaceRemoteIds claim workspaceId buildId =>
      s.storeWorkspaceRemoteIds claim workspaceId buildId

end Store
end CoderManager
