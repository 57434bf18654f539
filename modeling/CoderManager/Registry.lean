import CoderManager.Lib.Lease

/-!
# Job, task and step names

The allowlisted names of durable background jobs. A task name read back from
the database need not be on the list, so `TaskName` keeps the others too.
-/
namespace CoderManager

abbrev UUID := Nat

inductive ResourceType where
  | «instance»
  | template
  | templateAssignment
  | workspace
  deriving DecidableEq, Repr

inductive JobName where
  | instanceCreate
  | instanceUpdate
  | instanceStart
  | instanceStop
  | instanceDelete
  | templateSync
  | templateAssignmentCreate
  | templateAssignmentDelete
  | workspaceCreate
  | workspaceUpdate
  | workspaceDelete
  | databaseSync
  deriving DecidableEq, Repr

inductive Action where
  | creating
  | created
  | updating
  | updated
  | starting
  | stopping
  | deleting
  | syncing
  deriving DecidableEq, Repr

inductive StepName where
  | instanceCreateStep01
  | instanceCreateStep02
  | instanceCreateStep03
  | instanceUpdateStep01
  | instanceUpdateStep02
  | instanceStartStep01
  | instanceStopStep01
  | instanceStopStep02
  | instanceDeleteStep01
  | instanceDeleteStep02
  | instanceDeleteStep03
  | instanceDeleteStep04
  | workspaceCreateStep01
  | workspaceUpdateStep01
  | workspaceDeleteStep01
  | databaseSyncStep01
  | templateSyncStep01
  | templateAssignmentCreateStep01
  | templateAssignmentDeleteStep01
  deriving DecidableEq, Repr

/-- `registered s` is the task `<…>_TASK` whose step constant is `s`. -/
inductive TaskName where
  | registered (step : StepName)
  | unknown (name : String)
  deriving DecidableEq, Repr

namespace StepName

def task (s : StepName) : TaskName := .registered s

def resourceType : StepName → Option ResourceType
  | .instanceCreateStep01 | .instanceCreateStep02 | .instanceCreateStep03 | .instanceUpdateStep01
  | .instanceUpdateStep02 | .instanceStartStep01 | .instanceStopStep01 | .instanceStopStep02
  | .instanceDeleteStep01 | .instanceDeleteStep02 | .instanceDeleteStep03
  | .instanceDeleteStep04 => some .instance
  | .workspaceCreateStep01 | .workspaceUpdateStep01 | .workspaceDeleteStep01 => some .workspace
  | .databaseSyncStep01 => none
  | .templateSyncStep01 => some .template
  | .templateAssignmentCreateStep01 | .templateAssignmentDeleteStep01 => some .templateAssignment

end StepName

/-- Membership in `REGISTERED_STEP_NAMES`. -/
def TaskName.isRegistered : TaskName → Bool
  | .registered _ => true
  | .unknown _ => false

def resourceActions : JobName → Option Action
  | .instanceCreate => some .creating
  | .instanceUpdate => some .updating
  | .instanceStart => some .starting
  | .instanceStop => some .stopping
  | .instanceDelete => some .deleting
  | .templateSync => some .syncing
  | .templateAssignmentCreate => some .creating
  | .templateAssignmentDelete => some .deleting
  | .workspaceCreate => some .creating
  | .workspaceUpdate => some .updating
  | .workspaceDelete => some .deleting
  | .databaseSync => none

def JobName.steps : JobName → List StepName
  | .instanceCreate => [.instanceCreateStep01, .instanceCreateStep02, .instanceCreateStep03]
  | .instanceUpdate => [.instanceUpdateStep01, .instanceUpdateStep02]
  | .instanceStart => [.instanceStartStep01, .instanceUpdateStep02]
  | .instanceStop => [.instanceStopStep01, .instanceStopStep02]
  | .instanceDelete =>
      [.instanceDeleteStep01, .instanceDeleteStep02, .instanceDeleteStep03, .instanceDeleteStep04]
  | .templateSync => [.templateSyncStep01]
  | .templateAssignmentCreate => [.templateAssignmentCreateStep01]
  | .templateAssignmentDelete => [.templateAssignmentDeleteStep01]
  | .workspaceCreate => [.workspaceCreateStep01]
  | .workspaceUpdate => [.workspaceUpdateStep01]
  | .workspaceDelete => [.workspaceDeleteStep01]
  | .databaseSync => [.databaseSyncStep01]

def JobName.resourceType : JobName → Option ResourceType
  | .instanceCreate | .instanceUpdate | .instanceStart | .instanceStop | .instanceDelete =>
      some .instance
  | .templateSync => some .template
  | .templateAssignmentCreate | .templateAssignmentDelete => some .templateAssignment
  | .workspaceCreate | .workspaceUpdate | .workspaceDelete => some .workspace
  | .databaseSync => none

theorem JobName.resourceType_eq {name : JobName} {step : StepName} (h : step ∈ name.steps) :
    name.resourceType = step.resourceType := by
  cases name <;> cases step <;> simp_all [JobName.steps, JobName.resourceType, StepName.resourceType]

theorem JobName.eq_of_action {name name' : JobName}
    (action : resourceActions name = resourceActions name')
    (made : name.resourceType = some .instance) (made' : name'.resourceType = some .instance) :
    name = name' := by
  revert action made made'
  cases name <;> cases name' <;> decide

theorem JobName.eq_instanceDelete {name : JobName} {step : StepName} (h : step ∈ name.steps)
    (deletes : step ∈ JobName.instanceDelete.steps) : name = .instanceDelete := by
  revert h deletes
  cases name <;> cases step <;> decide

/-- The task and step pairs a job of this name goes through. -/
def JobName.InWorkflow (name : JobName) (task : TaskName) (step : StepName) : Prop :=
  step ∈ name.steps ∧ task = step.task

instance (name : JobName) (task : TaskName) (step : StepName) :
    Decidable (name.InWorkflow task step) := inferInstanceAs (Decidable (_ ∧ _))

/-- A resource as a job row names it. -/
abbrev Key := ResourceType × Option UUID

/-- Jobs and actions of the repository, as a lease catalogue. -/
def catalogue : Leases.Catalogue Key JobName Action TaskName StepName where
  action := resourceActions
  stage := JobName.InWorkflow
  made := fun name key => name.resourceType = some key.1

end CoderManager
