import CoderManager.Repositories.Instances

/-!
# Template assignment requests

Both requests are idempotent: repeating one while its transition is retryable
returns the current row, after checking that the row owns a matching job.
-/
namespace CoderManager
namespace Store

/-- `_lock_assignment`: the pair of template and instance is unique. -/
def findAssignment (s : Store) (instanceId templateId : UUID) : Option (UUID × TemplateAssignment) :=
  s.assignments.find? fun _ a => a.instanceId == instanceId && a.templateId == templateId

def requireMutationAvailable (i : Instance) (t : Template) : Except RequestError Unit := do
  require (i.state == .started && i.status == .success) .templateAssignmentInstanceUnavailable
  require (!t.status.isActive) .templateAssignmentSyncInProgress

def requireConsistentJob (s : Store) (assignmentId : UUID) (a : TemplateAssignment)
    (jobName : JobName) (taskName : TaskName) (step : StepName) : Except RequestError Unit :=
  match a.jobId.bind s.jobs.lookup with
  | none => .error .templateAssignmentJobConflict
  | some job =>
      require (job.name == jobName && job.taskName == taskName &&
        job.resourceType == some .templateAssignment && job.resourceId == some assignmentId &&
        job.step == step && a.step == some step && job.status == a.status)
        .templateAssignmentJobConflict

/-- `TemplateAssignmentRepository.put`: the assignment and whether it is still
being converged. -/
def putAssignment (s : Store) (instanceId templateId : UUID) :
    Except RequestError ((UUID × Bool) × Store) := do
  let i ← present (s.instances.lookup instanceId) .templateAssignmentInstanceNotFound
  let t ← present (s.templates.lookup templateId) .templateAssignmentTemplateNotFound
  requireMutationAvailable i t
  match s.findAssignment instanceId templateId with
  | none =>
      let (assignmentId, s) := s.drawId
      let (jobId, s) := s.addJobExecution .templateAssignmentCreate
        StepName.templateAssignmentCreateStep01.task (some .templateAssignment) (some assignmentId)
        .templateAssignmentCreateStep01
      return ((assignmentId, true), { s with assignments := s.assignments.insert assignmentId {
        action := .creating, status := .pending, jobId := some jobId
        step := some .templateAssignmentCreateStep01, templateId, instanceId } })
  | some (assignmentId, a) =>
      if a.action = .created ∧ a.status = .success then return ((assignmentId, false), s)
      else if a.action = .creating ∧ a.status.isActive then
        s.requireConsistentJob assignmentId a .templateAssignmentCreate
          StepName.templateAssignmentCreateStep01.task .templateAssignmentCreateStep01
        return ((assignmentId, true), s)
      else throw .templateAssignmentActionConflict

/-- `TemplateAssignmentRepository.request_deletion`: a missing assignment is
already removed. -/
def requestAssignmentDeletion (s : Store) (instanceId templateId : UUID) :
    Except RequestError ((Option UUID × Bool) × Store) := do
  let i ← present (s.instances.lookup instanceId) .templateAssignmentInstanceNotFound
  let t ← present (s.templates.lookup templateId) .templateAssignmentTemplateNotFound
  match s.findAssignment instanceId templateId with
  | none => return ((none, false), s)
  | some (assignmentId, a) =>
      requireMutationAvailable i t
      if a.action = .deleting ∧ a.status.isActive then
        s.requireConsistentJob assignmentId a .templateAssignmentDelete
          StepName.templateAssignmentDeleteStep01.task .templateAssignmentDeleteStep01
        return ((some assignmentId, true), s)
      else
        require (a.action == .created && a.status == .success) .templateAssignmentActionConflict
        require (!s.workspaces.any fun _ w => w.instanceId == instanceId &&
          w.templateId == templateId && w.status.isActive) .templateAssignmentWorkspacesBusy
        return ((some assignmentId, true), (s.stageJob .templateAssignmentDelete .deleting
          .templateAssignment assignmentId .templateAssignmentDeleteStep01).2)

end Store
end CoderManager
