import CoderManager.Lib.Table
import CoderManager.Registry

/-!
# Persistence models

The rows of the manager's database. Columns that no modelled operation reads
(timestamps of rows other than jobs) are left out. Statuses have one type: the
four `…Status` enumerations of the source hold the same four values.
-/
namespace CoderManager
open Tables

abbrev Time := Int

abbrev Status := Leases.Status

abbrev Lifecycle := Leases.Lifecycle UUID Action StepName

/-- An authenticated ciphertext, kept as what it decrypts to and the identifier
it is bound to: decryption under another identifier fails. -/
structure Sealed where
  boundTo : UUID
  plaintext : String
  deriving DecidableEq, Repr

namespace Sealed

def encrypt (value : String) (id : UUID) : Sealed := ⟨id, value⟩

def decrypt (envelope : Sealed) (id : UUID) : Option String :=
  if envelope.boundTo = id then some envelope.plaintext else none

end Sealed

inductive InstanceState where
  | started
  | stopped
  deriving DecidableEq, Repr

structure Instance extends Lifecycle where
  application : String
  slug : String
  state : InstanceState
  passwordEnc : Option Sealed
  passwordCandidateEnc : Option Sealed
  argocdApplicationName : Option String

/-- Keyed by its instance: the provider's primary key. -/
structure InstanceKubernetes where
  kubeconfigEnc : Sealed

inductive MemberRole where
  | user
  | admin
  deriving DecidableEq, Repr

structure Member where
  instanceId : UUID
  username : String
  role : MemberRole
  action : Action
  status : Status
  deriving DecidableEq, Repr

/-- `status` is the `sync_status` column. -/
structure Template extends Lifecycle where
  displayName : String
  name : String
  gitUrl : String
  sourcePath : String
  branch : String
  modules : List String
  systemParameterRevision : Nat

structure TemplateAssignment extends Lifecycle where
  templateId : UUID
  instanceId : UUID

/-- Keyed by its assignment, which the source makes unique. -/
structure TemplateDeployment where
  coderOrganizationId : Option UUID
  coderTemplateId : Option UUID
  coderTemplateVersionId : Option UUID
  targetCommit : Option String
  appliedCommit : Option String
  targetSystemParameterRevision : Option Nat
  appliedSystemParameterRevision : Option Nat
  status : Status
  deriving DecidableEq, Repr

structure TemplateImage where
  templateId : UUID
  registryName : String
  name : String
  version : String
  deriving DecidableEq, Repr

inductive TemplateParameterType where
  | user
  | system
  deriving DecidableEq, Repr

structure TemplateParameter where
  templateId : UUID
  type : TemplateParameterType
  name : String
  displayName : String
  description : String
  required : Option Bool
  mutable : Option Bool
  defaultValue : Option String
  deriving DecidableEq, Repr

structure Workspace extends Lifecycle where
  name : String
  instanceId : UUID
  templateId : UUID
  memberId : UUID
  imageId : UUID
  modules : List String
  parameters : List (String × String)
  parametersRevision : Nat
  appliedParametersRevision : Option Nat
  coderWorkspaceId : Option UUID
  coderWorkspaceBuildId : Option UUID

structure Database where
  name : String
  instanceMax : Nat
  host : String
  port : Nat
  databaseName : String
  username : String
  passwordEnc : Sealed

/-- Keyed by its instance, which the source makes unique. -/
structure DatabaseAllocation where
  databaseId : UUID
  schemaName : String

structure JobExecution where
  name : JobName
  taskName : TaskName
  resourceType : Option ResourceType
  resourceId : Option UUID
  step : StepName
  status : Status
  attempt : Nat
  claimedAt : Option Time
  createdAt : Time
  deriving DecidableEq, Repr

/-- The database and the two things a transaction draws from outside it: new
identifiers and the time. -/
structure Store where
  jobs : Table UUID JobExecution
  instances : Table UUID Instance
  kubernetesProviders : Table UUID InstanceKubernetes
  members : Table UUID Member
  templates : Table UUID Template
  assignments : Table UUID TemplateAssignment
  deployments : Table UUID TemplateDeployment
  images : Table UUID TemplateImage
  parameters : Table UUID TemplateParameter
  systemValues : Table UUID Sealed
  workspaces : Table UUID Workspace
  databases : Table UUID Database
  allocations : Table UUID DatabaseAllocation
  nextId : UUID
  now : Time

namespace Store

def empty : Store where
  jobs := .empty
  instances := .empty
  kubernetesProviders := .empty
  members := .empty
  templates := .empty
  assignments := .empty
  deployments := .empty
  images := .empty
  parameters := .empty
  systemValues := .empty
  workspaces := .empty
  databases := .empty
  allocations := .empty
  nextId := 0
  now := 0

/-- The lifecycle columns of one resource. -/
def lifecycle (s : Store) : ResourceType → UUID → Option Lifecycle
  | .instance, id => (s.instances.lookup id).map Instance.toLifecycle
  | .template, id => (s.templates.lookup id).map Template.toLifecycle
  | .templateAssignment, id => (s.assignments.lookup id).map TemplateAssignment.toLifecycle
  | .workspace, id => (s.workspaces.lookup id).map Workspace.toLifecycle

def modifyLifecycle (s : Store) (type : ResourceType) (id : UUID)
    (f : Lifecycle → Lifecycle) : Store :=
  match type with
  | .instance =>
      { s with instances := s.instances.modify id fun r => { r with toLifecycle := f r.toLifecycle } }
  | .template =>
      { s with templates := s.templates.modify id fun r => { r with toLifecycle := f r.toLifecycle } }
  | .templateAssignment =>
      { s with
        assignments := s.assignments.modify id fun r => { r with toLifecycle := f r.toLifecycle } }
  | .workspace =>
      { s with
        workspaces := s.workspaces.modify id fun r => { r with toLifecycle := f r.toLifecycle } }

def drawId (s : Store) : UUID × Store := (s.nextId, { s with nextId := s.nextId + 1 })

def addJobExecution (s : Store) (name : JobName) (taskName : TaskName)
    (resourceType : Option ResourceType) (resourceId : Option UUID) (step : StepName) :
    UUID × Store :=
  let (id, s) := s.drawId
  (id, { s with jobs := s.jobs.insert id {
    name, taskName, resourceType, resourceId, step
    status := .pending, attempt := 0, claimedAt := none, createdAt := s.now } })

end Store
end CoderManager
