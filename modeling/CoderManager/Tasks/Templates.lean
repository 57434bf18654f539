import CoderManager.Tasks.Instances

/-!
# Template steps

Publication of a template to one assignment, the steps that publish or remove
assignments, and the database synchronization placeholder.
-/
namespace CoderManager
open Programs

def versionName (commit : String) (revision : Nat) : String :=
  "git-" ++ commit ++ "-p" ++ toString revision

/-- `_managed_remote_template`: the managed template and whether its name finds
it. -/
def managedRemoteTemplate (url : InstanceUrl) (organizationId : UUID) (name : String)
    (persistedTemplateId persistedVersionId : Option UUID) : Worker (Option CoderTemplate × Bool) := do
  let foreign := WorkerError.templateTargetSyncError
    "Remote template name is already owned outside CoderManager"
  let persisted ← match persistedTemplateId with
    | none => pure none
    | some templateId => request (.template url templateId)
  let named ← request (.templateByName url organizationId name)
  match persisted, named with
  | some persisted, none => return (some persisted, false)
  | some persisted, some named =>
      if named.id ≠ persisted.id then throw foreign
      return (some persisted, true)
  | none, none => return (none, false)
  | none, some named =>
      if persistedTemplateId = some named.id ∨
          (persistedVersionId.isSome ∧ named.activeVersionId = persistedVersionId) then
        return (some named, true)
      throw foreign

def waitTemplateVersion (url : InstanceUrl) (versionId : UUID) (heartbeat : Worker Unit) :
    Nat → Worker CoderTemplateVersion
  | 0 => .halt
  | fuel + 1 => do
      let version ← request (.templateVersion url versionId)
      match version.status with
      | .succeeded => return version
      | .failed | .canceled | .cancelled =>
          throw (.coderRequestError "Coder template import failed")
      | _ =>
          if !(← request .beforeDeadline) then
            throw (.coderRequestError "Coder template import timed out")
          heartbeat
          waitTemplateVersion url versionId heartbeat fuel

/-- The version a publication uses: one of the right name, the persisted one, or
a new one. -/
def publishedVersion (claim : ExecutionClaim) (assignmentId organizationId : UUID)
    (snapshot : TemplateSourceSnapshot) (archive : TemplateArchive)
    (preparation : TemplateDeploymentPreparation) (remoteTemplate : Option CoderTemplate)
    (foundByName : Bool) : Worker CoderTemplateVersion := do
  let url := preparation.instanceUrl
  let name := versionName archive.commit snapshot.systemParameterRevision
  let named ← if remoteTemplate.isSome && foundByName then
      request (.templateVersionByName url organizationId snapshot.name name)
    else pure none
  let recovered ← match named, preparation.persistedVersionId with
    | some version, _ => pure (some version)
    | none, none => pure none
    | none, some versionId => request (.templateVersionForRecovery url versionId)
  match recovered with
  | some version => return version
  | none =>
      let fileId ← request (.uploadTemplateArchive url archive.content)
      let version ← request (.createTemplateVersion url organizationId fileId name
        (remoteTemplate.map fun t => t.id) preparation.systemValues)
      transact (.storeTemplateRemoteIds claim assignmentId none none (some version.id))
      return version

def publishTemplate (claim : ExecutionClaim) (assignmentId : UUID)
    (snapshot : TemplateSourceSnapshot) (archive : TemplateArchive)
    (preparation : TemplateDeploymentPreparation) (heartbeat : Worker Unit) (fuel : Nat) :
    Worker Unit := do
  let url := preparation.instanceUrl
  request (.authenticatePreparedAdmin url preparation.password)
  let organizationId ← request (.defaultOrganizationId url)
  let (remoteTemplate, foundByName) ← managedRemoteTemplate url organizationId snapshot.name
    preparation.persistedTemplateId preparation.persistedVersionId
  transact (.storeTemplateRemoteIds claim assignmentId (some organizationId)
    (remoteTemplate.map fun t => t.id) none)
  let version ← publishedVersion claim assignmentId organizationId snapshot archive preparation
    remoteTemplate foundByName
  let version ← if version.status = .succeeded then pure version
    else waitTemplateVersion url version.id heartbeat fuel
  if version.archived then request (.unarchiveTemplateVersion url version.id)
  match remoteTemplate with
  | none =>
      let created ← request (.createTemplate url organizationId snapshot.name snapshot.displayName
        version.id)
      transact (.storeTemplateRemoteIds claim assignmentId none (some created.id) none)
  | some template => request (.activateTemplateVersion url template.id version.id)

/-- `sync_template_target`: whether remote work ran. -/
def syncTemplateTarget (snapshot : TemplateSourceSnapshot) (archive : TemplateArchive)
    (assignmentId : UUID) (claim : ExecutionClaim) (heartbeat : Worker Unit) (fuel : Nat) :
    Worker Bool := do
  let revision := snapshot.systemParameterRevision
  let preparation ← transact (.prepareDeployment claim assignmentId snapshot.id archive.commit
    revision)
  if preparation.alreadyApplied then return false
  tryCatch (publishTemplate claim assignmentId snapshot archive preparation heartbeat fuel)
    (fun error => match error with
      | .templateTargetClaimLostError _ => throw error
      | _ => do
          transact (.finishDeployment claim assignmentId archive.commit revision false)
          throw error)
  transact (.finishDeployment claim assignmentId archive.commit revision true)
  return true

def publicationHeartbeat (claim : ExecutionClaim) : Worker Unit := heartbeatOwned claim claimLost

def fetchTemplateArchive (snapshot : TemplateSourceSnapshot) : Worker TemplateArchive :=
  request (.fetchBranchArchive snapshot.gitUrl snapshot.branch snapshot.sourcePath)

namespace Tasks

def createTemplate (fuel : Nat) (claim : ExecutionClaim) : Worker TaskStatus := do
  let assignmentId ← liftExcept claim.requiredResourceId
  let templateId ← query (.assignmentTemplateId assignmentId)
  let snapshot ← query (.templateSourceSnapshot templateId)
  let archive ← fetchTemplateArchive snapshot
  let _ ← syncTemplateTarget snapshot archive assignmentId claim (publicationHeartbeat claim) fuel
  complete claim .markCreated

/-- One target of `step_01_sync_template`: whether it failed. A lost claim ends
the whole step. -/
def syncTarget (snapshot : TemplateSourceSnapshot) (archive : TemplateArchive)
    (claim : ExecutionClaim) (fuel : Nat) (failures : Nat) (assignmentId : UUID) : Worker Nat := do
  publicationHeartbeat claim
  tryCatch
    (do
      let _ ← syncTemplateTarget snapshot archive assignmentId claim (publicationHeartbeat claim) fuel
      return failures)
    (fun error => match error with
      | .templateTargetClaimLostError _ => throw error
      | _ => return failures + 1)

def syncTemplate (fuel : Nat) (claim : ExecutionClaim) : Worker TaskStatus := do
  let templateId ← liftExcept claim.requiredResourceId
  let assignmentIds ← query (.stableAssignmentIds templateId)
  if assignmentIds.isEmpty then return ← complete claim .none
  let snapshot ← query (.templateSourceSnapshot templateId)
  let archive ← fetchTemplateArchive snapshot
  let failures ← foldEach assignmentIds 0 (syncTarget snapshot archive claim fuel)
  if failures ≠ 0 then
    throw (.runtimeError
      ("Template synchronization failed for " ++ toString failures ++ " target(s)"))
  complete claim .none

def deleteTemplate (fuel : Nat) (claim : ExecutionClaim) : Worker TaskStatus := do
  let assignmentId ← liftExcept claim.requiredResourceId
  let snapshot ← query (.removalSnapshot assignmentId)
  let heartbeat := heartbeatOwned claim
    (.runtimeError "Template assignment deletion claim is no longer current")
  match snapshot.coderTemplateId, snapshot.password with
  | some coderTemplateId, some password =>
      let _ ← Coder.deleteTemplateWorkspaces snapshot.instanceUrl password coderTemplateId heartbeat
        fuel
      heartbeat
      request (.authenticatePreparedAdmin snapshot.instanceUrl password)
      request (.deleteTemplate snapshot.instanceUrl coderTemplateId)
  | _, _ => pure ()
  return if ← transact (.removeLocalAssignment claim snapshot) then .deleted else .noop

/-- `step_01_sync_database`: its remote half is a placeholder that does nothing. -/
def syncDatabase (claim : ExecutionClaim) : Worker TaskStatus := complete claim .none

end Tasks
end CoderManager
