import CoderManager.Runs

/-!
# Jobs and resources agree

A resource that has not converged owns a job with the same step, action and
status, and an assignment request never meets a job that disagrees with its
assignment.
-/
namespace CoderManager
open Tables Leases

/-- The job of a resource that has not converged. -/
theorem Sound.active_job {s : Store} (hs : Sound s) {type : ResourceType} {id : UUID}
    {r : Lifecycle} (row : s.lifecycle type id = some r) (active : r.status ≠ .success) :
    ∃ jobId job, r.jobId = some jobId ∧ s.jobs.lookup jobId = some job ∧
      job.resourceType = some type ∧ job.resourceId = some id ∧ r.step = some job.step ∧
      resourceActions job.name = some r.action ∧ job.status = r.status ∧
      job.name.InWorkflow job.taskName job.step := by
  have hrow : s.ledger.owners (type, some id) = some r := by simpa [Store.ledger] using row
  obtain ⟨jobId, b, hjob, hb, hstep, haction⟩ := hs.ledger.active _ r hrow active
  obtain ⟨b', hb', howner, hstatus⟩ := hs.ledger.current _ r jobId hrow hjob
  rw [hb, Option.some.injEq] at hb'
  subst hb'
  have hstage := hs.ledger.stage jobId b hb
  simp only [Store.ledger, Option.map_eq_some_iff] at hb
  obtain ⟨job, hlookup, rfl⟩ := hb
  simp only [JobExecution.lease, Option.map_eq_some_iff, Prod.mk.injEq] at howner
  obtain ⟨type', htype, rfl, hid⟩ := howner
  exact ⟨jobId, job, hjob, hlookup, htype, hid, hstep, haction, hstatus, hstage⟩

theorem assignment_job_unique {name : JobName} {task : TaskName} {step : StepName}
    (made : name.resourceType = some .templateAssignment) (flow : name.InWorkflow task step) :
    (resourceActions name = some .creating → name = .templateAssignmentCreate ∧
      task = StepName.templateAssignmentCreateStep01.task ∧
      step = .templateAssignmentCreateStep01) ∧
    (resourceActions name = some .deleting → name = .templateAssignmentDelete ∧
      task = StepName.templateAssignmentDeleteStep01.task ∧
      step = .templateAssignmentDeleteStep01) := by
  obtain ⟨hstep, rfl⟩ := flow
  cases name <;> simp_all [JobName.resourceType, resourceActions, JobName.steps]

/-- The check of a retryable assignment against its job passes. -/
theorem Sound.requireConsistentJob {s : Store} (hs : Sound s) {id : UUID} {a : TemplateAssignment}
    (row : s.assignments.lookup id = some a) (active : a.status.isActive = true) :
    (a.action = .creating → s.requireConsistentJob id a .templateAssignmentCreate
      StepName.templateAssignmentCreateStep01.task .templateAssignmentCreateStep01 = .ok ()) ∧
    (a.action = .deleting → s.requireConsistentJob id a .templateAssignmentDelete
      StepName.templateAssignmentDeleteStep01.task .templateAssignmentDeleteStep01 = .ok ()) := by
  have hrow : s.lifecycle .templateAssignment id = some a.toLifecycle := by
    simp [Store.lifecycle, row]
  obtain ⟨jobId, job, hjob, hlookup, htype, hid, hstep, haction, hstatus, hflow⟩ :=
    hs.active_job hrow (Status.isActive_eq_true.mp active)
  have hmade : job.name.resourceType = some .templateAssignment :=
    hs.ledger.made jobId job.lease (.templateAssignment, some id) (by simp [Store.ledger, hlookup])
      (by simp [JobExecution.lease, htype, hid])
  obtain ⟨hcreate, hdelete⟩ := assignment_job_unique hmade hflow
  refine ⟨fun hact => ?_, fun hact => ?_⟩
  · obtain ⟨hname, htask, hst⟩ := hcreate (hact ▸ haction)
    simp [Store.requireConsistentJob, require, hjob, hlookup, htype, hid, hname, htask, hst, hstep,
      hstatus]
  · obtain ⟨hname, htask, hst⟩ := hdelete (hact ▸ haction)
    simp [Store.requireConsistentJob, require, hjob, hlookup, htype, hid, hname, htask, hst, hstep,
      hstatus]

section Refusals
variable {ε α β : Type}

theorem bind_eq_error {x : Except ε α} {f : α → Except ε β} {e : ε} :
    (x >>= f) = .error e ↔ x = .error e ∨ ∃ a, x = .ok a ∧ f a = .error e := by
  cases x <;> simp [bind, Except.bind]

theorem present_eq_error {row : Option α} {error e : RequestError} :
    present row error = .error e ↔ row = none ∧ error = e := by
  cases row <;> simp [present]

theorem require_eq_error {condition : Bool} {error e : RequestError} :
    require condition error = .error e ↔ condition = false ∧ error = e := by
  cases condition <;> simp [require]

theorem requireMutationAvailable_ne_jobConflict (i : Instance) (t : Template) :
    Store.requireMutationAvailable i t ≠ .error .templateAssignmentJobConflict := by
  simp [Store.requireMutationAvailable, bind_eq_error, require_eq_error]

end Refusals

theorem Sound.putAssignment_no_conflict {s : Store} (hs : Sound s) (instanceId templateId : UUID) :
    s.putAssignment instanceId templateId ≠ .error .templateAssignmentJobConflict := by
  intro h
  simp only [Store.putAssignment, bind_eq_error, present_eq_error, reduceCtorEq, and_false,
    false_or, requireMutationAvailable_ne_jobConflict] at h
  obtain ⟨i, -, t, -, -, -, h⟩ := h
  split at h
  · simp [pure, Except.pure] at h
  · rename_i id a hfind
    split at h
    · simp [pure, Except.pure] at h
    · split at h
      · rename_i hcreating
        have hok := (hs.requireConsistentJob (Table.find?_eq_some hfind).1 hcreating.2).1
          hcreating.1
        simp [hok, bind, Except.bind, pure, Except.pure] at h
      · simp [throw, throwThe, MonadExceptOf.throw] at h

theorem Sound.requestAssignmentDeletion_no_conflict {s : Store} (hs : Sound s)
    (instanceId templateId : UUID) :
    s.requestAssignmentDeletion instanceId templateId ≠ .error .templateAssignmentJobConflict := by
  intro h
  simp only [Store.requestAssignmentDeletion, bind_eq_error, present_eq_error, reduceCtorEq,
    and_false, false_or] at h
  obtain ⟨i, -, t, -, h⟩ := h
  split at h
  · simp [pure, Except.pure] at h
  · rename_i id a hfind
    simp only [bind_eq_error, requireMutationAvailable_ne_jobConflict, false_or] at h
    obtain ⟨-, -, h⟩ := h
    split at h
    · rename_i hdeleting
      have hok := (hs.requireConsistentJob (Table.find?_eq_some hfind).1 hdeleting.2).2
        hdeleting.1
      simp [hok, bind, Except.bind, pure, Except.pure] at h
    · simp [bind_eq_error, require_eq_error, pure, Except.pure] at h

/-- In every reachable state, jobs and resources agree. -/
theorem jobs_and_resources_agree (steps : List Step) : let s := (run steps).world.store
    (∀ type id r, s.lifecycle type id = some r → r.status.isActive = true →
      ∃ jobId job, r.jobId = some jobId ∧ s.jobs.lookup jobId = some job ∧
        job.resourceType = some type ∧ job.resourceId = some id ∧ r.step = some job.step ∧
        resourceActions job.name = some r.action ∧ job.status = r.status ∧
        job.name.InWorkflow job.taskName job.step) ∧
    (∀ jobId job, s.jobs.lookup jobId = some job →
      (job.status = .running ↔ job.claimedAt ≠ none)) ∧
    (∀ type id r, s.lifecycle type id = some r → r.status = .success → r.step = none) ∧
    ∀ instanceId templateId,
      s.putAssignment instanceId templateId ≠ .error .templateAssignmentJobConflict ∧
      s.requestAssignmentDeletion instanceId templateId ≠ .error .templateAssignmentJobConflict := by
  intro s
  have hs : Sound s := (run_reaches steps).sound
  refine ⟨?_, ?_, ?_, ?_⟩
  · exact fun type id r row active => hs.active_job row (Status.isActive_eq_true.mp active)
  · exact fun jobId job row => hs.ledger.clock jobId job.lease (by simp [Store.ledger, row])
  · exact fun type id r row settled =>
      hs.ledger.settled (type, some id) r (by simpa [Store.ledger] using row) settled
  · exact fun instanceId templateId => ⟨hs.putAssignment_no_conflict instanceId templateId,
      hs.requestAssignmentDeletion_no_conflict instanceId templateId⟩

end CoderManager
