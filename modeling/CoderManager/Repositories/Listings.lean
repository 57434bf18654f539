import CoderManager.Lib.Paging
import CoderManager.Repositories.Reads
import Mathlib.Algebra.Order.Ring.Int
import Mathlib.Data.Prod.Lex
import Mathlib.Data.String.Basic

/-!
# List routes

What the routes that list rows answer. Text is compared by code points, and a
utilization percentage is left out.
-/
namespace CoderManager

/-- A page of a list route. -/
structure Page (α : Type) where
  items : List α
  page : Nat
  pageSize : Nat
  total : Nat
  pages : Nat

/-- `order_by`: the columns of the key, compared one after the other. -/
def orderBy {κ α : Type} [LinearOrder κ] (key : α → κ) (rows : List α) : List α :=
  rows.insertionSort fun a b => key a ≤ key b

/-- Serve one page of the rows, beside the count of the matching ones. -/
def listPage {κ α : Type} [LinearOrder κ] (key : α → κ) (rows : List α)
    (total page pageSize : Nat) : Page α where
  items := Paging.page pageSize (orderBy key rows) (page - 1)
  page := page
  pageSize := pageSize
  total := total
  pages := (total + pageSize - 1) / pageSize

/-- `column.icontains(text, autoescape=True)`. -/
def icontains (column text : String) : Bool :=
  decide (text.toLower.toList <:+: column.toLower.toList)

structure DatabaseUsage where
  id : UUID
  database : Database
  allocatedInstances : Nat

structure DatabaseItemStatistics where
  id : UUID
  name : String
  instanceMax : Int
  allocatedInstances : Int
  availableSlots : Int
  deriving DecidableEq, Repr

structure DatabaseStatistics where
  databaseCount : Nat
  totalCapacity : Int
  allocatedInstances : Int
  availableSlots : Int
  databases : List DatabaseItemStatistics
  deriving DecidableEq, Repr

structure WorkspaceListQuery where
  instanceId : Option UUID
  templateId : Option UUID
  memberId : Option UUID
  imageId : Option UUID
  status : Option Status
  name : Option String
  deriving DecidableEq, Repr

def WorkspaceListQuery.accepts (query : WorkspaceListQuery) (w : Workspace) : Bool :=
  query.instanceId.all (w.instanceId == ·) && query.templateId.all (w.templateId == ·) &&
    query.memberId.all (w.memberId == ·) && query.imageId.all (w.imageId == ·) &&
    query.status.all (w.status == ·) && query.name.all (icontains w.name ·)

/-- The order of the enumeration in PostgreSQL: that of its values. -/
def TemplateParameterType.position : TemplateParameterType → Nat
  | .user => 0
  | .system => 1

namespace Store

def databaseKey (u : DatabaseUsage) : String ×ₗ String ×ₗ UUID :=
  toLex (u.database.name.toLower, toLex (u.database.name, u.id))

def instanceKey (r : UUID × Instance) : String ×ₗ UUID := toLex (r.2.application, r.1)

def memberKey (r : UUID × Member) : String ×ₗ UUID := toLex (r.2.username, r.1)

def templateKey (r : UUID × Template) : String ×ₗ String ×ₗ String ×ₗ UUID :=
  toLex (r.2.displayName.toLower, toLex (r.2.displayName, toLex (r.2.name, r.1)))

def imageKey (r : UUID × TemplateImage) : String ×ₗ String ×ₗ String ×ₗ UUID :=
  toLex (r.2.registryName, toLex (r.2.name, toLex (r.2.version, r.1)))

def parameterKey (r : UUID × TemplateParameter) : Nat ×ₗ String ×ₗ UUID :=
  toLex (r.2.type.position, toLex (r.2.name, r.1))

def workspaceKey (r : UUID × Workspace) : UUID ×ₗ String ×ₗ String ×ₗ UUID :=
  toLex (r.2.instanceId, toLex (r.2.name.toLower, toLex (r.2.name, r.1)))

/-- An assignment is ordered by the template it is joined with. -/
def assignmentKey (r : (UUID × TemplateAssignment) × Template) :
    String ×ₗ String ×ₗ String ×ₗ UUID := templateKey (r.1.1, r.2)

/-- `DatabaseRepository._usage_statement`. -/
def usage (s : Store) (r : UUID × Database) : DatabaseUsage :=
  { id := r.1, database := r.2, allocatedInstances := s.allocationCount r.1 }

/-- `DatabaseRepository.list_page`. -/
def listDatabases (s : Store) (name : Option String) (page pageSize : Nat) : Page DatabaseUsage :=
  let matching := s.databases.select fun _ d => name.all (icontains d.name ·)
  listPage databaseKey (matching.map s.usage) matching.length page pageSize

def listUsage (s : Store) : List DatabaseUsage := orderBy databaseKey (s.databases.rows.map s.usage)

/-- `get_database_statistics`. -/
def databaseStatistics (s : Store) : DatabaseStatistics :=
  let usages := s.listUsage
  let totalCapacity : Int := (usages.map fun u => (u.database.instanceMax : Int)).sum
  let allocatedInstances : Int := (usages.map fun u => (u.allocatedInstances : Int)).sum
  { databaseCount := usages.length, totalCapacity, allocatedInstances
    availableSlots := max (totalCapacity - allocatedInstances) 0
    databases := usages.map fun u => {
      id := u.id, name := u.database.name, instanceMax := u.database.instanceMax
      allocatedInstances := u.allocatedInstances
      availableSlots := max ((u.database.instanceMax : Int) - u.allocatedInstances) 0 } }

def allocatedTo (s : Store) (instanceId databaseId : UUID) : Bool :=
  (s.allocations.lookup instanceId).any (·.databaseId == databaseId)

/-- `InstanceRepository.list`. -/
def listInstances (s : Store) (application : Option String) (databaseId : Option UUID)
    (page pageSize : Nat) : Page (UUID × Instance) :=
  let matching := s.instances.select fun id i =>
    application.all (i.application == ·) && databaseId.all (s.allocatedTo id ·)
  listPage instanceKey matching matching.length page pageSize

def listDatabaseInstances (s : Store) (databaseId : UUID) (page pageSize : Nat) :
    Except HttpException (Page (UUID × Instance)) := do
  let _ ← respond (s.databases.lookup databaseId) ⟨404, "Database not found"⟩
  return s.listInstances none (some databaseId) page pageSize

def listMembers (s : Store) (instanceId : UUID) (page pageSize : Nat) :
    Except HttpException (Page (UUID × Member)) := do
  let _ ← respond (s.instances.lookup instanceId) ⟨404, "Instance not found"⟩
  let matching := s.members.select fun _ m => m.instanceId == instanceId
  return listPage memberKey matching matching.length page pageSize

/-- `TemplateRepository.list`. -/
def listTemplates (s : Store) (displayName : Option String) (page pageSize : Nat) :
    Page (UUID × Template) :=
  let matching := s.templates.select fun _ t => displayName.all (icontains t.displayName ·)
  listPage templateKey matching matching.length page pageSize

def listTemplateImages (s : Store) (templateId : UUID) (page pageSize : Nat) :
    Except HttpException (Page (UUID × TemplateImage)) := do
  let _ ← respond (s.templates.lookup templateId) ⟨404, "Template not found"⟩
  let matching := s.images.select fun _ i => i.templateId == templateId
  return listPage imageKey matching matching.length page pageSize

def listTemplateParameters (s : Store) (templateId : UUID) (page pageSize : Nat) :
    Except HttpException (Page (UUID × TemplateParameter)) := do
  let _ ← respond (s.templates.lookup templateId) ⟨404, "Template not found"⟩
  let matching := s.parameters.select fun _ p => p.templateId == templateId
  return listPage parameterKey matching matching.length page pageSize

/-- `TemplateAssignmentRepository.list`, as the route answers. The rows are
joined with their template, the count is not. -/
def listInstanceTemplates (s : Store) (instanceId : UUID) (page pageSize : Nat) :
    Except HttpException (Page ((UUID × TemplateAssignment) × Template)) := do
  let _ ← respond (s.instances.lookup instanceId) ⟨404, "Instance not found"⟩
  let matching := s.assignments.select fun _ a => a.instanceId == instanceId
  let joined := matching.filterMap fun r => (s.templates.lookup r.2.templateId).map fun t => (r, t)
  return listPage assignmentKey joined matching.length page pageSize

/-- `WorkspaceRepository.list_page`. -/
def listWorkspaces (s : Store) (query : WorkspaceListQuery) (page pageSize : Nat) :
    Page (UUID × Workspace) :=
  let matching := s.workspaces.select fun _ w => query.accepts w
  listPage workspaceKey matching matching.length page pageSize

end Store
end CoderManager
