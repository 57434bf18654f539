import CoderManager.Repositories.Instances

/-!
# Template requests

Templates, their images and their parameters. A template keeps at most one
synchronization job: replacing or deleting it removes the job's row.
-/
namespace CoderManager

structure TemplateFields where
  displayName : String
  gitUrl : String
  sourcePath : String
  branch : String
  modules : List String

/-- `UserTemplateParameterCreate` and `SystemTemplateParameterCreate`. -/
inductive ParameterValue where
  | user (required mutable : Bool) (defaultValue : Option String)
  | system (value : String)

/-- `UserTemplateParameterUpdate` and `SystemTemplateParameterUpdate`. -/
inductive ParameterUpdate where
  | user (required mutable : Bool) (defaultValue : Option String)
  | system (value : Option String)

namespace Store

def discardCurrentJob (s : Store) (templateId : UUID) : Store :=
  match s.templates.lookup templateId with
  | none => s
  | some t =>
      match t.jobId with
      | none => s
      | some jobId =>
          { s.modifyLifecycle .template templateId fun r => { r with jobId := none } with
            jobs := s.jobs.erase jobId }

/-- `_ensure_no_active_assignments`. -/
def hasActiveAssignment (s : Store) (templateId : UUID) : Bool :=
  s.assignments.any fun _ a => a.templateId == templateId && a.status.isActive

/-- `_ensure_no_active_workspaces`. -/
def hasActiveWorkspace (s : Store) (templateId : UUID) : Bool :=
  s.workspaces.any fun _ w => w.templateId == templateId && w.status.isActive

/-- `TemplateRepository.create`: the unique index is on `lower(name)`. -/
def createTemplate (s : Store) (name : String) (payload : TemplateFields) :
    Except RequestError (UUID × Store) := do
  require (!s.templates.any fun _ t => t.name.toLower == name.toLower) .templateAlreadyExists
  let (templateId, s) := s.drawId
  return (templateId, { s with templates := s.templates.insert templateId {
    action := .created, status := .success, jobId := none, step := none
    displayName := payload.displayName, name, gitUrl := payload.gitUrl
    sourcePath := payload.sourcePath, branch := payload.branch, modules := payload.modules
    systemParameterRevision := 0 } })

def updateTemplate (s : Store) (templateId : UUID) (payload : TemplateFields) :
    Except RequestError (UUID × Store) := do
  let t ← present (s.templates.lookup templateId) .templateNotFound
  require (!t.status.isActive) .templateSyncInProgress
  require (!s.hasActiveAssignment templateId) .templateAssignmentsInProgress
  require (!s.hasActiveWorkspace templateId) .templateWorkspacesInProgress
  let changed := t.displayName != payload.displayName || t.gitUrl != payload.gitUrl ||
    t.sourcePath != payload.sourcePath || t.branch != payload.branch ||
    t.modules != payload.modules
  if !changed then return (templateId, s)
  require (!s.workspaces.any fun _ w => w.templateId == templateId &&
    !w.modules.all fun m => payload.modules.contains m) .templateWorkspaceCompatibility
  let s := s.discardCurrentJob templateId
  let templates := s.templates.modify templateId fun t => { t with
    displayName := payload.displayName, gitUrl := payload.gitUrl
    sourcePath := payload.sourcePath, branch := payload.branch, modules := payload.modules
    action := .updated, status := .success, step := none }
  return (templateId, { s with templates })

/-- `TemplateRepository.delete`. Images and parameters go with the template; a
workspace that still refers to it makes the commit fail. -/
def deleteTemplate (s : Store) (templateId : UUID) : Except RequestError (UUID × Store) := do
  let t ← present (s.templates.lookup templateId) .templateNotFound
  require (!t.status.isActive) .templateSyncInProgress
  require (!s.assignments.any fun _ a => a.templateId == templateId) .templateHasAssignments
  require (!s.workspaces.any fun _ w => w.templateId == templateId) .integrityError
  let s := s.discardCurrentJob templateId
  let owned := fun parameterId =>
    (s.parameters.lookup parameterId).any fun p => p.templateId == templateId
  return (templateId, { s with
    templates := s.templates.erase templateId
    images := s.images.deleteWhere fun _ i => i.templateId == templateId
    parameters := s.parameters.deleteWhere fun _ p => p.templateId == templateId
    systemValues := s.systemValues.deleteWhere fun parameterId _ => owned parameterId })

def requestTemplateSync (s : Store) (templateId : UUID) : Except RequestError (UUID × Store) := do
  let t ← present (s.templates.lookup templateId) .templateNotFound
  require (!t.status.isActive) .templateSyncInProgress
  require (!s.hasActiveAssignment templateId) .templateAssignmentsInProgress
  require (!s.hasActiveWorkspace templateId) .templateWorkspacesInProgress
  return (s.discardCurrentJob templateId).stageJob .templateSync .syncing .template templateId
    .templateSyncStep01

def createImage (s : Store) (templateId : UUID) (registry name version : String) :
    Except RequestError (UUID × Store) := do
  let _ ← present (s.templates.lookup templateId) .templateImageTemplateNotFound
  require (!s.images.any fun _ i => i.templateId == templateId && i.registryName == registry &&
    i.name == name && i.version == version) .templateImageAlreadyExists
  let (imageId, s) := s.drawId
  let images := s.images.insert imageId { templateId, registryName := registry, name, version }
  return (imageId, { s with images })

def deleteImage (s : Store) (templateId imageId : UUID) : Except RequestError (UUID × Store) := do
  let _ ← present (s.templates.lookup templateId) .templateImageTemplateNotFound
  let i ← present (s.images.lookup imageId) .templateImageNotFound
  require (i.templateId == templateId) .templateImageNotFound
  require (!s.workspaces.any fun _ w => w.imageId == imageId) .templateImageInUse
  return (imageId, { s with images := s.images.erase imageId })

def lockParameterTemplate (s : Store) (templateId : UUID) : Except RequestError Template := do
  let t ← present (s.templates.lookup templateId) .templateParameterTemplateNotFound
  require (!t.status.isActive) .templateParameterSyncInProgress
  require (!s.hasActiveAssignment templateId) .templateParameterSyncInProgress
  return t

/-- `_locked_parameter`. -/
def lockParameter (s : Store) (templateId parameterId : UUID) :
    Except RequestError TemplateParameter := do
  let p ← present (s.parameters.lookup parameterId) .templateParameterNotFound
  require (p.templateId == templateId) .templateParameterNotFound
  return p

def bumpSystemParameterRevision (s : Store) (templateId : UUID) : Store :=
  { s with templates := s.templates.modify templateId fun t =>
    { t with systemParameterRevision := t.systemParameterRevision + 1 } }

def createParameter (s : Store) (templateId : UUID) (name displayName description : String)
    (value : ParameterValue) : Except RequestError (UUID × Store) := do
  let _ ← s.lockParameterTemplate templateId
  require (!s.parameters.any fun _ p => p.templateId == templateId && p.name == name)
    .templateParameterAlreadyExists
  let (parameterId, s) := s.drawId
  match value with
  | .user required mutable defaultValue =>
      let parameters := s.parameters.insert parameterId
        { templateId, type := .user, name, displayName, description, required := some required,
          mutable := some mutable, defaultValue }
      return (parameterId, { s with parameters })
  | .system value =>
      let parameters := s.parameters.insert parameterId
        { templateId, type := .system, name, displayName, description, required := none,
          mutable := none, defaultValue := none }
      let systemValues := s.systemValues.insert parameterId (.encrypt value parameterId)
      return (parameterId, { s with parameters, systemValues }.bumpSystemParameterRevision templateId)

/-- `TemplateParameterRepository.update` with `_apply_update`: the revision moves
only when a new value is stored. -/
def updateParameter (s : Store) (templateId parameterId : UUID) (displayName description : String)
    (update : ParameterUpdate) : Except RequestError (UUID × Store) := do
  let _ ← s.lockParameterTemplate templateId
  let p ← s.lockParameter templateId parameterId
  match p.type, update with
  | .user, .user required mutable defaultValue =>
      let parameters := s.parameters.insert parameterId
        { p with displayName, description, required := some required, mutable := some mutable,
                 defaultValue }
      return (parameterId, { s with parameters })
  | .system, .system value =>
      let parameters := s.parameters.insert parameterId { p with displayName, description }
      let s := { s with parameters }
      match value with
      | none => return (parameterId, s)
      | some value =>
          let store := fun (s : Store) =>
            { s with systemValues := s.systemValues.insert parameterId (.encrypt value parameterId) }
          match s.systemValues.lookup parameterId with
          | none => return (parameterId, (store s).bumpSystemParameterRevision templateId)
          | some stored =>
              match stored.decrypt parameterId with
              | none => throw .templateParameterDecryption
              | some current =>
                  if current = value then return (parameterId, s)
                  else return (parameterId, (store s).bumpSystemParameterRevision templateId)
  | _, _ => throw .templateParameterImmutableField

def deleteParameter (s : Store) (templateId parameterId : UUID) :
    Except RequestError (UUID × Store) := do
  let _ ← s.lockParameterTemplate templateId
  let p ← s.lockParameter templateId parameterId
  let s := if p.type = .system then s.bumpSystemParameterRevision templateId else s
  return (parameterId, { s with
    parameters := s.parameters.erase parameterId
    systemValues := s.systemValues.erase parameterId })

end Store
end CoderManager
