import CoderManager.Tasks.InstanceTransactions

/-!
# Transactions of the template and workspace steps

Deployment writes are fenced by `_lock_owned_template_target`, which checks the
claim against the job, the template and the assignment it publishes.
-/
namespace CoderManager

structure TemplateSourceSnapshot where
  id : UUID
  displayName : String
  name : String
  gitUrl : String
  sourcePath : String
  branch : String
  systemParameterRevision : Nat
  deriving DecidableEq, Repr

structure TemplateDeploymentPreparation where
  alreadyApplied : Bool
  instanceUrl : InstanceUrl
  password : String
  persistedTemplateId : Option UUID
  persistedVersionId : Option UUID
  systemValues : List (String × String)
  deriving DecidableEq, Repr

structure OwnedTemplateTarget where
  instanceId : UUID
  inst : Instance
  templateId : UUID
  template : Template
  assignment : TemplateAssignment
  deployment : Option TemplateDeployment

structure TemplateRemovalSnapshot where
  assignmentId : UUID
  templateId : UUID
  instanceId : UUID
  instanceUrl : InstanceUrl
  password : Option String
  coderTemplateId : Option UUID
  deriving DecidableEq, Repr

structure WorkspaceRemoteSnapshot where
  id : UUID
  name : String
  username : String
  instanceUrl : InstanceUrl
  password : String
  coderTemplateId : UUID
  coderWorkspaceId : Option UUID
  coderWorkspaceBuildId : Option UUID
  parameters : List (String × String)
  parametersRevision : Nat
  appliedParametersRevision : Option Nat
  deriving DecidableEq, Repr

def claimLost : WorkerError :=
  .templateTargetClaimLostError "Template synchronization claim is no longer current"

def jobMatchesClaim (job : JobExecution) (claim : ExecutionClaim) : Bool :=
  job.taskName == claim.taskName && job.step == claim.step && job.attempt == claim.attempt &&
    job.status == .running && job.resourceType == claim.resourceType &&
    job.resourceId == claim.resourceId

def jobOwnsSyncResource (jobId : UUID) (job : JobExecution) (templateId : UUID) (t : Template)
    (assignmentId : UUID) (a : TemplateAssignment) : Bool :=
  if job.name = .templateSync ∧ job.resourceType = some .template then
    job.resourceId == some templateId && t.jobId == some jobId && t.action == .syncing &&
      t.step == some job.step && t.status == .running
  else if job.name = .templateAssignmentCreate ∧ job.resourceType = some .templateAssignment then
    job.resourceId == some assignmentId && a.jobId == some jobId && a.action == .creating &&
      a.step == some job.step && a.status == .running
  else false

namespace Store

def templateSourceSnapshot (s : Store) (templateId : UUID) :
    Except WorkerError TemplateSourceSnapshot := do
  let t ← found (s.templates.lookup templateId) (.templateTargetSyncError "Template is missing")
  return { id := templateId, displayName := t.displayName, name := t.name, gitUrl := t.gitUrl
           sourcePath := t.sourcePath, branch := t.branch
           systemParameterRevision := t.systemParameterRevision }

def assignmentTemplateId (s : Store) (assignmentId : UUID) : Except WorkerError UUID := do
  let a ← found (s.assignments.lookup assignmentId)
    (.templateTargetSyncError "Template assignment is missing")
  return a.templateId

def stableAssignmentIds (s : Store) (templateId : UUID) : Except WorkerError (List UUID) := do
  let _ ← found (s.templates.lookup templateId) (.templateTargetSyncError "Template is missing")
  return ((s.assignments.select fun _ a => a.templateId == templateId && a.action == .created &&
    a.status == .success && (s.instances.lookup a.instanceId).any fun i =>
      i.state == .started && i.status == .success && i.action != .deleting).map
        Prod.fst).insertionSort (· ≤ ·)

def lockOwnedTemplateTarget (s : Store) (claim : ExecutionClaim) (assignmentId : UUID)
    (expectedTemplateId : Option UUID) : Except WorkerError OwnedTemplateTarget := do
  let job ← found (s.jobs.lookup claim.jobId) claimLost
  if !jobMatchesClaim job claim then throw claimLost
  let missing := WorkerError.templateTargetSyncError "Template synchronization assignment is missing"
  let a ← found (s.assignments.lookup assignmentId) missing
  if expectedTemplateId.any fun t => t != a.templateId then throw missing
  let gone := WorkerError.templateTargetSyncError "Template synchronization target is missing"
  let i ← found (s.instances.lookup a.instanceId) gone
  let t ← found (s.templates.lookup a.templateId) gone
  if !jobOwnsSyncResource claim.jobId job a.templateId t assignmentId a then throw claimLost
  return { instanceId := a.instanceId, inst := i, templateId := a.templateId, template := t
           assignment := a, deployment := s.deployments.lookup assignmentId }

def systemParameterValues (s : Store) (templateId : UUID) :
    Except WorkerError (List (String × String)) :=
  (((s.parameters.select fun _ p => p.templateId == templateId).insertionSort
    (fun a b => a.2.name ≤ b.2.name)).filter fun p => p.2.type == .system).mapM fun p => do
      let value ← found (s.systemValues.lookup p.1)
        (.templateTargetSyncError "Template system parameter value is missing")
      return (p.2.name, ← found (value.decrypt p.1) .decryptionError)

def newDeployment : TemplateDeployment where
  coderOrganizationId := none
  coderTemplateId := none
  coderTemplateVersionId := none
  targetCommit := none
  appliedCommit := none
  targetSystemParameterRevision := none
  appliedSystemParameterRevision := none
  status := .pending

/-- The test by which `_prepare_deployment` skips the remote work. -/
def deploymentApplied (d : TemplateDeployment) (commit : String) (revision : Nat) : Bool :=
  d.status == .success && d.appliedCommit == some commit &&
    d.appliedSystemParameterRevision == some revision

/-- `_prepare_deployment`. A persisted version id is kept only for the target it
was created for. -/
def prepareDeployment (s : Store) (claim : ExecutionClaim) (assignmentId templateId : UUID)
    (commit : String) (revision : Nat) :
    Except WorkerError (TemplateDeploymentPreparation × Store) := do
  let target ← s.lockOwnedTemplateTarget claim assignmentId (some templateId)
  let i := target.inst
  if !(i.state == .started && i.status == .success) then
    throw (.templateTargetSyncError "Coder instance is not started and successful")
  let envelope ← found i.passwordEnc
    (.templateTargetSyncError "Coder administrator password is not initialized")
  let d := target.deployment.getD newDeployment
  if deploymentApplied d commit revision then
    return ({ alreadyApplied := true, instanceUrl := target.instanceId, password := ""
              persistedTemplateId := d.coderTemplateId
              persistedVersionId := d.coderTemplateVersionId, systemValues := [] }, s)
  let sameTarget := d.targetCommit == some commit && d.targetSystemParameterRevision == some revision
  let d := { d with
    coderTemplateVersionId := if sameTarget then d.coderTemplateVersionId else none
    targetCommit := some commit, targetSystemParameterRevision := some revision
    status := .running }
  let password ← found (envelope.decrypt target.instanceId) .decryptionError
  let systemValues ← s.systemParameterValues target.templateId
  return ({ alreadyApplied := false, instanceUrl := target.instanceId, password
            persistedTemplateId := d.coderTemplateId
            persistedVersionId := d.coderTemplateVersionId, systemValues },
    { s with deployments := s.deployments.insert assignmentId d })

/-- `_store_remote_ids` of a template publication: absent ids are left alone. -/
def storeTemplateRemoteIds (s : Store) (claim : ExecutionClaim) (assignmentId : UUID)
    (organizationId coderTemplateId coderTemplateVersionId : Option UUID) :
    Except WorkerError Store := do
  let target ← s.lockOwnedTemplateTarget claim assignmentId none
  let _ ← found target.deployment (.templateTargetSyncError "Template deployment is missing")
  let deployments := s.deployments.modify assignmentId fun d => { d with
    coderOrganizationId := organizationId <|> d.coderOrganizationId
    coderTemplateId := coderTemplateId <|> d.coderTemplateId
    coderTemplateVersionId := coderTemplateVersionId <|> d.coderTemplateVersionId }
  return { s with deployments }

def finishDeployment (s : Store) (claim : ExecutionClaim) (assignmentId : UUID) (commit : String)
    (revision : Nat) (success : Bool) : Except WorkerError Store := do
  let target ← s.lockOwnedTemplateTarget claim assignmentId none
  match target.deployment with
  | none => return s
  | some _ =>
      let deployments := s.deployments.modify assignmentId fun d =>
        if success then { d with
          status := .success, appliedCommit := some commit
          appliedSystemParameterRevision := some revision }
        else { d with status := .error }
      return { s with deployments }

def removalSnapshot (s : Store) (assignmentId : UUID) : Except WorkerError TemplateRemovalSnapshot := do
  let a ← found (s.assignments.lookup assignmentId)
    (.runtimeError "Template assignment is missing")
  let i ← found (s.instances.lookup a.instanceId)
    (.runtimeError "Template assignment instance is missing")
  let coderTemplateId := (s.deployments.lookup assignmentId).bind fun d => d.coderTemplateId
  let password ← if coderTemplateId.isNone then pure none else do
    if !(i.state == .started && i.status == .success) then
      throw (.runtimeError "Coder instance is not started and successful")
    let envelope ← found i.passwordEnc
      (.runtimeError "Coder administrator password is not initialized")
    let password ← found (envelope.decrypt a.instanceId) .decryptionError
    pure (some password)
  return { assignmentId, templateId := a.templateId, instanceId := a.instanceId
           instanceUrl := a.instanceId, password, coderTemplateId }

def removeLocalAssignment (s : Store) (claim : ExecutionClaim) (snapshot : TemplateRemovalSnapshot) :
    Except WorkerError (Bool × Store) :=
  match s.ownedExecution claim with
  | none => .ok (false, s)
  | some job =>
      match job.resourceType, job.resourceId with
      | some .templateAssignment, some id =>
          let workspaces := s.workspaces.deleteWhere fun _ w =>
            w.templateId == snapshot.templateId && w.instanceId == snapshot.instanceId
          .ok (true, { s.modifyJob claim.jobId fun job =>
              { job with status := .success, claimedAt := none } with
            workspaces
            deployments := s.deployments.erase id
            assignments := s.assignments.erase id })
      | _, _ => .ok (false, s)

def workspaceRemoteSnapshot (s : Store) (workspaceId : UUID) :
    Except WorkerError WorkspaceRemoteSnapshot := do
  let w ← found (s.workspaces.lookup workspaceId) (.workspaceRemoteError "Workspace is missing")
  let missing := WorkerError.workspaceRemoteError "Workspace remote prerequisites are missing"
  let i ← found (s.instances.lookup w.instanceId) missing
  let m ← found (s.members.lookup w.memberId) missing
  let deployment := (s.assignments.find? fun _ a => a.templateId == w.templateId &&
    a.instanceId == w.instanceId).bind fun a => s.deployments.lookup a.1
  let coderTemplateId ← found (deployment.bind fun d => d.coderTemplateId) missing
  let envelope ← found i.passwordEnc missing
  let active := fun name => s.parameters.any fun _ p =>
    p.templateId == w.templateId && p.type == .user && p.name == name
  let password ← found (envelope.decrypt w.instanceId) .decryptionError
  return {
    id := workspaceId, name := w.name, username := m.username, instanceUrl := w.instanceId, password
    coderTemplateId, coderWorkspaceId := w.coderWorkspaceId
    coderWorkspaceBuildId := w.coderWorkspaceBuildId
    parameters := (w.parameters.filter fun p => active p.1).insertionSort
      (fun a b => a.1 < b.1 ∨ (a.1 = b.1 ∧ a.2 ≤ b.2))
    parametersRevision := w.parametersRevision
    appliedParametersRevision := w.appliedParametersRevision }

/-- `store_remote_ids` of a workspace step. -/
def storeWorkspaceRemoteIds (s : Store) (claim : ExecutionClaim) (workspaceId buildId : UUID) :
    Except WorkerError (Bool × Store) :=
  match s.ownedExecution claim with
  | none => .ok (false, s)
  | some job =>
      match job.resourceType, job.resourceId with
      | some .workspace, some id =>
          let workspaces := s.workspaces.modify id fun w => { w with
            coderWorkspaceId := some workspaceId, coderWorkspaceBuildId := some buildId }
          .ok (true, { s with workspaces })
      | _, _ => .ok (false, s)

end Store
end CoderManager
