import CoderManager.Tasks.Templates

/-!
# Workspace steps

Creation and update adopt a remote workspace only when it uses the expected
template; deletion takes whatever the lookup finds.
-/
namespace CoderManager
open Programs

/-- `find_remote_workspace`: by persisted id, else by owner and name. -/
def findRemoteWorkspace (snapshot : WorkspaceRemoteSnapshot) : Worker (Option CoderWorkspace) := do
  let remote ← match snapshot.coderWorkspaceId with
    | none => pure none
    | some workspaceId => request (.workspace snapshot.instanceUrl workspaceId)
  match remote with
  | some remote => return some remote
  | none => request (.workspaceByOwnerAndName snapshot.instanceUrl snapshot.username snapshot.name)

def requireMatchingTemplate (remote : CoderWorkspace) (snapshot : WorkspaceRemoteSnapshot) :
    Worker Unit :=
  if remote.templateId ≠ some snapshot.coderTemplateId then
    throw (.workspaceRemoteError "Remote workspace uses a different template")
  else pure ()

def CoderWorkspace.latestBuild (remote : CoderWorkspace) : CoderWorkspaceBuild where
  id := remote.latestBuildId
  status := remote.status
  transition := remote.latestBuildTransition

def waitWorkspaceBuild (url : InstanceUrl) (successStatus : BuildStatus) (heartbeat : Worker Unit) :
    Nat → CoderWorkspaceBuild → Worker CoderWorkspaceBuild
  | 0, _ => .halt
  | fuel + 1, current => do
      if current.status = successStatus then return current
      if current.status = .failed ∨ current.status = .canceled ∨ current.status = .canceling then
        throw (.coderRequestError "Coder workspace build failed")
      if !(← request .beforeDeadline) then
        throw (.coderRequestError "Coder workspace build timed out")
      heartbeat
      let build ← request (.workspaceBuild url current.id)
      waitWorkspaceBuild url successStatus heartbeat fuel build

/-- The heartbeat of the workspace steps ignores a lost claim. -/
def workspaceHeartbeat (claim : ExecutionClaim) : Worker Unit := do
  let _ ← transact (.heartbeatExecution claim)

/-- `complete_workspace` without deletion. -/
def completeWorkspace (claim : ExecutionClaim) (workspaceId buildId : Option UUID)
    (applyParameters : Bool) : Worker TaskStatus :=
  complete claim (.convergeWorkspace workspaceId buildId applyParameters)

/-- `complete_workspace` with `delete_resource`. -/
def completeWorkspaceDeletion (claim : ExecutionClaim) : Worker TaskStatus := do
  return if ← transact (.completeExecution claim (.convergeWorkspace none none false) true)
    then .deleted else .noop

namespace Tasks

/-- The statuses from which a found workspace is started again. -/
def restartStatuses : List BuildStatus :=
  [.stopped, .failed, .canceled, .canceling, .deleting, .deleted]

def creationBuild (snapshot : WorkspaceRemoteSnapshot) (remote : CoderWorkspace) (created : Bool) :
    Worker CoderWorkspaceBuild := do
  let build := remote.latestBuild
  if created then return build
  let current ← if build.transition = .start then
      request (.workspaceBuildParameters snapshot.instanceUrl build.id)
    else pure []
  if current ≠ snapshot.parameters ∨ restartStatuses.contains build.status then
    request (.createWorkspaceStartBuild snapshot.instanceUrl remote.id snapshot.parameters)
  else return build

def createWorkspace (fuel : Nat) (claim : ExecutionClaim) : Worker TaskStatus := do
  let workspaceId ← liftExcept claim.requiredResourceId
  let snapshot ← query (.workspaceRemoteSnapshot workspaceId)
  request (.authenticatePreparedAdmin snapshot.instanceUrl snapshot.password)
  let found ← findRemoteWorkspace snapshot
  let remote ← match found with
    | some remote => pure remote
    | none => request (.createWorkspace snapshot.instanceUrl snapshot.username snapshot.name
        snapshot.coderTemplateId snapshot.parameters)
  requireMatchingTemplate remote snapshot
  let build ← creationBuild snapshot remote found.isNone
  if ← transact (.storeWorkspaceRemoteIds claim remote.id build.id) then
    let build ← waitWorkspaceBuild snapshot.instanceUrl .running (workspaceHeartbeat claim) fuel build
    completeWorkspace claim (some remote.id) (some build.id) true
  else return .noop

/-- The build that applies changed parameters: one already under way with these
parameters, or a new one. -/
def updateBuild (snapshot : WorkspaceRemoteSnapshot) (remote : CoderWorkspace) :
    Worker CoderWorkspaceBuild := do
  let latest := remote.latestBuild
  if latest.transition = .start ∧
      (latest.status = .pending ∨ latest.status = .starting ∨ latest.status = .running) then
    let current ← request (.workspaceBuildParameters snapshot.instanceUrl latest.id)
    if current = snapshot.parameters then return latest
  request (.createWorkspaceStartBuild snapshot.instanceUrl remote.id snapshot.parameters)

def updateWorkspace (fuel : Nat) (claim : ExecutionClaim) : Worker TaskStatus := do
  let workspaceId ← liftExcept claim.requiredResourceId
  let snapshot ← query (.workspaceRemoteSnapshot workspaceId)
  request (.authenticatePreparedAdmin snapshot.instanceUrl snapshot.password)
  match ← findRemoteWorkspace snapshot with
  | none => throw (.workspaceRemoteError "Remote workspace is missing")
  | some remote =>
      requireMatchingTemplate remote snapshot
      if remote.name ≠ snapshot.name then
        request (.updateWorkspaceName snapshot.instanceUrl remote.id snapshot.name)
      if snapshot.appliedParametersRevision ≠ some snapshot.parametersRevision then
        let build ← updateBuild snapshot remote
        if ← transact (.storeWorkspaceRemoteIds claim remote.id build.id) then
          let build ← waitWorkspaceBuild snapshot.instanceUrl .running (workspaceHeartbeat claim)
            fuel build
          completeWorkspace claim (some remote.id) (some build.id) true
        else return .noop
      else completeWorkspace claim (some remote.id) none false

def deletionBuild (snapshot : WorkspaceRemoteSnapshot) (remote : CoderWorkspace) :
    Worker CoderWorkspaceBuild := do
  let build := remote.latestBuild
  if build.transition ≠ .delete ∨ build.status = .failed ∨ build.status = .canceled ∨
      build.status = .canceling then
    request (.createWorkspaceDeleteBuild snapshot.instanceUrl remote.id)
  else return build

def deleteWorkspace (fuel : Nat) (claim : ExecutionClaim) : Worker TaskStatus := do
  let workspaceId ← liftExcept claim.requiredResourceId
  let snapshot ← query (.workspaceRemoteSnapshot workspaceId)
  request (.authenticatePreparedAdmin snapshot.instanceUrl snapshot.password)
  match ← findRemoteWorkspace snapshot with
  | none => completeWorkspaceDeletion claim
  | some remote =>
      let build ← deletionBuild snapshot remote
      if ← transact (.storeWorkspaceRemoteIds claim remote.id build.id) then
        let _ ← waitWorkspaceBuild snapshot.instanceUrl .deleted (workspaceHeartbeat claim) fuel build
        completeWorkspaceDeletion claim
      else return .noop

end Tasks
end CoderManager
