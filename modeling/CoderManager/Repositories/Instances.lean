import CoderManager.Execution

/-!
# Instance requests

The transactions behind the instance, Kubernetes provider and database pool
routes. A request either returns the committed store or the error it raises
after a rollback.
-/
namespace CoderManager

/-- The errors the repositories raise to their routes. -/
inductive RequestError where
  | integrityError
  | instanceAlreadyExists
  | instanceNotFound
  | instanceActionConflict
  | instanceDatabaseUnavailable
  | instanceKubernetesAlreadyConfigured
  | databaseAlreadyExists
  | databaseNotFound
  | databaseInUse
  | databaseCapacityConflict
  | memberAlreadyExists
  | memberInstanceNotFound
  | memberNotFound
  | memberInstanceBusy
  | memberActionConflict
  | memberHasWorkspaces
  | memberProtectedAdministrator
  | templateAlreadyExists
  | templateNotFound
  | templateHasAssignments
  | templateWorkspaceCompatibility
  | templateSyncInProgress
  | templateAssignmentsInProgress
  | templateWorkspacesInProgress
  | templateImageAlreadyExists
  | templateImageNotFound
  | templateImageTemplateNotFound
  | templateImageInUse
  | templateParameterTemplateNotFound
  | templateParameterNotFound
  | templateParameterAlreadyExists
  | templateParameterImmutableField
  | templateParameterSyncInProgress
  | templateParameterDecryption
  | templateAssignmentInstanceNotFound
  | templateAssignmentTemplateNotFound
  | templateAssignmentInstanceUnavailable
  | templateAssignmentActionConflict
  | templateAssignmentJobConflict
  | templateAssignmentSyncInProgress
  | templateAssignmentWorkspacesBusy
  | workspaceAlreadyExists
  | workspaceNotFound
  | workspaceInstanceNotFound
  | workspaceInstanceBusy
  | workspaceTemplateNotFound
  | workspaceMemberNotFound
  | workspaceMemberUnavailable
  | workspaceImageNotFound
  | workspaceImageUnavailable
  | workspaceConfiguration
  | workspaceParameterImmutable
  | workspaceTemplateNotDeployed
  | workspaceBusy
  deriving DecidableEq, Repr

def require (condition : Bool) (error : RequestError) : Except RequestError Unit :=
  if condition then .ok () else .error error

def present {α : Type} (row : Option α) (error : RequestError) : Except RequestError α :=
  match row with
  | some a => .ok a
  | none => .error error

def instanceSlugLength : Nat := 12

def instanceSlugAlphabet : List Char := "abcdefghijklmnopqrstuvwxyz0123456789".toList

/-- What `generate_instance_slug` draws. -/
structure InstanceSlug where
  text : String
  length_eq : text.length = instanceSlugLength
  drawn : ∀ c ∈ text.toList, c ∈ instanceSlugAlphabet
  deriving DecidableEq, Repr

namespace Store

/-- Attach one new pending job to a resource: the assignments every request
makes before its commit. Returns the job's identifier. -/
def stageJob (s : Store) (name : JobName) (action : Action) (type : ResourceType) (id : UUID)
    (step : StepName) : UUID × Store :=
  let (job, s) := s.addJobExecution name step.task (some type) (some id) step
  (job, s.modifyLifecycle type id fun _ =>
    { action, status := .pending, jobId := some job, step := some step })

/-- `_has_active_template_assignment`: template convergence owns the instance.
The source joins the template row of each assignment. -/
def hasActiveTemplateAssignment (s : Store) (instanceId : UUID) : Bool :=
  s.assignments.any fun _ a => a.instanceId == instanceId &&
    match s.templates.lookup a.templateId with
    | none => false
    | some t => a.status.isActive || t.status.isActive

def creationIsIncomplete (i : Instance) : Bool := i.action == .creating && i.status != .success

def allocationCount (s : Store) (databaseId : UUID) : Nat :=
  (s.allocations.select fun _ a => a.databaseId == databaseId).length

/-- The order of `min` over `(allocated / instance_max, name.casefold(), id)`;
ratios are compared by cross multiplication. -/
def lessUtilized (s : Store) (a b : UUID × Database) : Bool :=
  let left := s.allocationCount a.1 * b.2.instanceMax
  let right := s.allocationCount b.1 * a.2.instanceMax
  if left ≠ right then left < right
  else if a.2.name.toLower ≠ b.2.name.toLower then a.2.name.toLower < b.2.name.toLower
  else a.1 ≤ b.1

def leastUtilizedDatabase (s : Store) : Option (UUID × Database) :=
  (s.databases.select fun id d => s.allocationCount id < d.instanceMax).foldl
    (fun best d => match best with
      | none => some d
      | some b => if s.lessUtilized b d then some b else some d) none

/-- `InstanceRepository.create`. The slug is the one the generator draws last:
a slug already in use is drawn again, so it is never stored. -/
def createInstance (s : Store) (application slug : String) : Except RequestError (UUID × Store) := do
  let (databaseId, _) ← present s.leastUtilizedDatabase .instanceDatabaseUnavailable
  require (!s.instances.any fun _ i => i.slug == slug) .instanceAlreadyExists
  require (!s.instances.any fun _ i => i.application == application) .instanceAlreadyExists
  let (instanceId, s) := s.drawId
  let (jobId, s) := s.addJobExecution .instanceCreate StepName.instanceCreateStep01.task
    (some .instance) (some instanceId) .instanceCreateStep01
  return (instanceId, { s with
    instances := s.instances.insert instanceId {
      action := .creating, status := .pending, jobId := some jobId
      step := some .instanceCreateStep01, application, slug, state := .stopped
      passwordEnc := none, passwordCandidateEnc := none, argocdApplicationName := none }
    allocations := s.allocations.insert instanceId {
      databaseId, schemaName := "coder_" ++ toString instanceId } })

def requestInstanceDeletion (s : Store) (instanceId : UUID) :
    Except RequestError (UUID × Store) := do
  let i ← present (s.instances.lookup instanceId) .instanceNotFound
  require (!s.hasActiveTemplateAssignment instanceId) .instanceActionConflict
  let failedCreation := i.action == .creating && i.status == .error
  let successfullyReconciled :=
    (i.action == .creating || i.action == .updating || i.action == .starting ||
      i.action == .stopping) && i.status == .success
  require (successfullyReconciled || failedCreation) .instanceActionConflict
  let skipWorkspaceCleanup := failedCreation && i.passwordEnc.isNone
  let step : StepName :=
    if skipWorkspaceCleanup then .instanceDeleteStep02 else .instanceDeleteStep01
  return s.stageJob .instanceDelete .deleting .instance instanceId step

/-- The check shared by `request_sync` and `_request_power_action`. -/
def requireIdleInstance (s : Store) (instanceId : UUID) : Except RequestError Instance := do
  let i ← present (s.instances.lookup instanceId) .instanceNotFound
  require (!(creationIsIncomplete i || i.action == .deleting || i.status.inProgress ||
    s.hasActiveTemplateAssignment instanceId)) .instanceActionConflict
  return i

/-- `InstanceRepository.request_sync`: failed member changes are retried in the
same pass. -/
def requestSync (s : Store) (instanceId : UUID) : Except RequestError (UUID × Store) := do
  let _ ← s.requireIdleInstance instanceId
  let members := s.members.updateWhere
    (fun _ m => m.instanceId == instanceId && m.status == .error)
    (fun m => { m with status := .pending })
  let s := { s with members }
  return s.stageJob .instanceUpdate .updating .instance instanceId .instanceUpdateStep01

def requestPowerAction (s : Store) (instanceId : UUID) (action : Action) (jobName : JobName)
    (step : StepName) : Except RequestError (UUID × Store) := do
  let _ ← s.requireIdleInstance instanceId
  return s.stageJob jobName action .instance instanceId step

def requestStart (s : Store) (instanceId : UUID) : Except RequestError (UUID × Store) :=
  s.requestPowerAction instanceId .starting .instanceStart .instanceStartStep01

def requestStop (s : Store) (instanceId : UUID) : Except RequestError (UUID × Store) :=
  s.requestPowerAction instanceId .stopping .instanceStop .instanceStopStep01

/-- `InstanceKubernetesRepository.create_and_request_update`. Its
`_lock_idle_instance` looks at the instance's own status only. -/
def createKubernetesProvider (s : Store) (instanceId : UUID) (kubeconfig : String) :
    Except RequestError (UUID × Store) := do
  let i ← present (s.instances.lookup instanceId) .instanceNotFound
  require (i.status == .success) .instanceActionConflict
  require (s.kubernetesProviders.lookup instanceId).isNone .instanceKubernetesAlreadyConfigured
  let s := { s with kubernetesProviders :=
    s.kubernetesProviders.insert instanceId ⟨.encrypt kubeconfig instanceId⟩ }
  return s.stageJob .instanceUpdate .updating .instance instanceId .instanceUpdateStep01

end Store

structure DatabaseFields where
  name : String
  instanceMax : Nat
  host : String
  port : Nat
  databaseName : String
  username : String

namespace Store

/-- The unique index on `lower(name)`. -/
def databaseNameTaken (s : Store) (databaseId : UUID) (name : String) : Bool :=
  s.databases.any fun id d => id != databaseId && d.name.toLower == name.toLower

def createDatabase (s : Store) (payload : DatabaseFields) (password : String) :
    Except RequestError (UUID × Store) := do
  let (databaseId, s) := s.drawId
  require (!s.databaseNameTaken databaseId payload.name) .databaseAlreadyExists
  return (databaseId, { s with databases := s.databases.insert databaseId {
    name := payload.name, instanceMax := payload.instanceMax, host := payload.host
    port := payload.port, databaseName := payload.databaseName, username := payload.username
    passwordEnc := .encrypt password databaseId } })

def updateDatabase (s : Store) (databaseId : UUID) (payload : DatabaseFields)
    (password : Option String) : Except RequestError (UUID × Store) := do
  let d ← present (s.databases.lookup databaseId) .databaseNotFound
  require (s.allocationCount databaseId ≤ payload.instanceMax) .databaseCapacityConflict
  require (!s.databaseNameTaken databaseId payload.name) .databaseAlreadyExists
  return (databaseId, { s with databases := s.databases.insert databaseId {
    name := payload.name, instanceMax := payload.instanceMax, host := payload.host
    port := payload.port, databaseName := payload.databaseName, username := payload.username
    passwordEnc := match password with
      | none => d.passwordEnc
      | some password => .encrypt password databaseId } })

def deleteDatabase (s : Store) (databaseId : UUID) : Except RequestError (UUID × Store) := do
  let _ ← present (s.databases.lookup databaseId) .databaseNotFound
  require (!s.allocations.any fun _ a => a.databaseId == databaseId) .databaseInUse
  return (databaseId, { s with databases := s.databases.erase databaseId })

/-- `JobExecutionRepository.create_system_job`, as the database route calls it. -/
def requestDatabaseSync (s : Store) : Except RequestError (UUID × Store) :=
  .ok (s.addJobExecution .databaseSync StepName.databaseSyncStep01.task none none
    .databaseSyncStep01)

end Store
end CoderManager
