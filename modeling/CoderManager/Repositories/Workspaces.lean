import CoderManager.Repositories.Instances

/-!
# Workspace requests

A request validates every referenced row before it stages a job. Parameter
values are kept for definitions that were deleted since.
-/
namespace CoderManager

/-- The mutable fields of a workspace. `parameters` has distinct names. -/
structure WorkspaceFields where
  name : String
  imageId : UUID
  modules : List String
  parameters : List (String × String)

/-- `dict` equality: the same value under every name. -/
def sameParameters (a b : List (String × String)) : Bool :=
  a.all (fun p => b.lookup p.1 == some p.2) && b.all (fun p => a.lookup p.1 == some p.2)

namespace Store

def lockAvailableWorkspaceInstance (s : Store) (instanceId : UUID) :
    Except RequestError Instance := do
  let i ← present (s.instances.lookup instanceId) .workspaceInstanceNotFound
  require (i.status == .success) .workspaceInstanceBusy
  return i

def requireRemoteTemplate (s : Store) (templateId instanceId : UUID) : Except RequestError Unit :=
  require (s.assignments.any fun id a => a.templateId == templateId && a.instanceId == instanceId &&
      a.action == .created && a.status == .success &&
      ((s.templates.lookup a.templateId).any fun t => t.status == .success) &&
      ((s.deployments.lookup id).any fun d => d.coderTemplateId.isSome))
    .workspaceTemplateNotDeployed

def validateOwner (s : Store) (memberId instanceId : UUID) : Except RequestError Unit := do
  let m ← present (s.members.lookup memberId) .workspaceMemberNotFound
  require (m.instanceId == instanceId && m.status == .success) .workspaceMemberUnavailable

def validateImage (s : Store) (imageId templateId : UUID) : Except RequestError Unit := do
  let i ← present (s.images.lookup imageId) .workspaceImageNotFound
  require (i.templateId == templateId) .workspaceImageUnavailable

def validateModules (t : Template) (modules : List String) : Except RequestError Unit :=
  require (modules.all fun m => t.modules.contains m) .workspaceConfiguration

def userParameters (s : Store) (templateId : UUID) : List TemplateParameter :=
  ((s.parameters.select fun _ p => p.templateId == templateId && p.type == .user).map
    Prod.snd).insertionSort (fun a b => a.name ≤ b.name)

end Store

def resolveParameter (parameter : TemplateParameter) (supplied : List (String × String))
    (previous : Option (List (String × String))) : Except RequestError (Option String) := do
  let previousValue := (previous.getD []).lookup parameter.name
  let immutable := previous.isSome && parameter.mutable == some false
  let value ← match supplied.lookup parameter.name with
    | some value => .ok (some value)
    | none =>
        if immutable && previousValue.isSome then .ok previousValue
        else if parameter.defaultValue.isSome then .ok parameter.defaultValue
        else if parameter.required == some true then .error .workspaceConfiguration
        else .ok none
  match value with
  | none => return none
  | some value =>
      require (!(immutable && previousValue.isSome && previousValue != some value))
        .workspaceParameterImmutable
      return some value

def resolveParameters (definitions : List TemplateParameter) (supplied : List (String × String))
    (previous : Option (List (String × String))) : Except RequestError (List (String × String)) := do
  let defined := fun name => definitions.any fun p => p.name == name
  let previousValues := previous.getD []
  require (supplied.all fun p => defined p.1 || previousValues.lookup p.1 == some p.2)
    .workspaceConfiguration
  let kept := previousValues.filter fun p => !defined p.1
  let resolved ← definitions.mapM fun p => do
    return (← resolveParameter p supplied previous).map fun value => (p.name, value)
  return kept ++ resolved.filterMap id

namespace Store

/-- The unique index on the instance and `lower(name)`. -/
def workspaceNameTaken (s : Store) (workspaceId instanceId : UUID) (name : String) : Bool :=
  s.workspaces.any fun id w => id != workspaceId && w.instanceId == instanceId &&
    w.name.toLower == name.toLower

def createWorkspace (s : Store) (instanceId templateId memberId : UUID)
    (payload : WorkspaceFields) : Except RequestError (UUID × Store) := do
  let _ ← s.lockAvailableWorkspaceInstance instanceId
  let t ← present (s.templates.lookup templateId) .workspaceTemplateNotFound
  s.requireRemoteTemplate templateId instanceId
  s.validateOwner memberId instanceId
  s.validateImage payload.imageId templateId
  validateModules t payload.modules
  let parameters ← resolveParameters (s.userParameters templateId) payload.parameters none
  let (workspaceId, s) := s.drawId
  require (!s.workspaceNameTaken workspaceId instanceId payload.name) .workspaceAlreadyExists
  let (jobId, s) := s.addJobExecution .workspaceCreate StepName.workspaceCreateStep01.task
    (some .workspace) (some workspaceId) .workspaceCreateStep01
  return (workspaceId, { s with workspaces := s.workspaces.insert workspaceId {
    action := .creating, status := .pending, jobId := some jobId
    step := some .workspaceCreateStep01, name := payload.name, instanceId, templateId, memberId
    imageId := payload.imageId, modules := payload.modules, parameters, parametersRevision := 0
    appliedParametersRevision := none, coderWorkspaceId := none, coderWorkspaceBuildId := none } })

def updateWorkspace (s : Store) (workspaceId : UUID) (payload : WorkspaceFields) :
    Except RequestError ((UUID × Bool) × Store) := do
  let w ← present (s.workspaces.lookup workspaceId) .workspaceNotFound
  require (!w.status.inProgress) .workspaceBusy
  let _ ← s.lockAvailableWorkspaceInstance w.instanceId
  let t ← present (s.templates.lookup w.templateId) .workspaceTemplateNotFound
  s.requireRemoteTemplate w.templateId w.instanceId
  s.validateImage payload.imageId w.templateId
  validateModules t payload.modules
  let parameters ← resolveParameters (s.userParameters w.templateId) payload.parameters
    (some w.parameters)
  let changed := w.name != payload.name || w.imageId != payload.imageId ||
    w.modules != payload.modules || !sameParameters w.parameters parameters
  if !changed && w.status == .success then return ((workspaceId, false), s)
  require (!s.workspaceNameTaken workspaceId w.instanceId payload.name) .workspaceAlreadyExists
  let workspaces := s.workspaces.modify workspaceId fun w => { w with
    name := payload.name, imageId := payload.imageId, modules := payload.modules
    parameters := if sameParameters w.parameters parameters then w.parameters else parameters
    parametersRevision :=
      if sameParameters w.parameters parameters then w.parametersRevision
      else w.parametersRevision + 1 }
  let s := { s with workspaces }
  return ((workspaceId, true), (s.stageJob .workspaceUpdate .updating .workspace workspaceId
    .workspaceUpdateStep01).2)

def requestWorkspaceDeletion (s : Store) (workspaceId : UUID) :
    Except RequestError (UUID × Store) := do
  let w ← present (s.workspaces.lookup workspaceId) .workspaceNotFound
  require (!w.status.inProgress) .workspaceBusy
  let _ ← s.lockAvailableWorkspaceInstance w.instanceId
  let _ ← present (s.templates.lookup w.templateId) .workspaceTemplateNotFound
  s.requireRemoteTemplate w.templateId w.instanceId
  return s.stageJob .workspaceDelete .deleting .workspace workspaceId .workspaceDeleteStep01

end Store
end CoderManager
