import CoderManager.Ledger

/-!
# Execution helpers as ledger steps

Each helper either finds the claim stale and changes nothing, or makes one step
of the ledger. The inversion lemmas state both cases with everything the helper
checked.
-/
namespace CoderManager
open Tables Leases
namespace Store
variable {s s' : Store} {claim : ExecutionClaim} {job : JobExecution}

/-- A claim is refused without a write, or opens the next attempt of a pending
or failed job that its resource still names. -/
theorem claimExecution_cases (s : Store) (jobId : UUID) (taskName : TaskName) :
    s.claimExecution jobId taskName = (none, s) ∨
      ∃ job, s.jobs.lookup jobId = some job ∧ job.taskName = taskName ∧
        (job.status = .pending ∨ job.status = .error) ∧
        Matches catalogue s.ledger jobId job.lease ∧
        s.claimExecution jobId taskName =
          (some ⟨jobId, taskName, job.step, job.attempt + 1, job.resourceType, job.resourceId⟩,
            (s.modifyJob jobId fun _ => { job with
              status := .running, attempt := job.attempt + 1, claimedAt := some s.now }).modifyResource
              job fun r => { r with status := .running }) := by
  unfold claimExecution
  cases hrow : s.jobs.lookup jobId with
  | none => exact .inl rfl
  | some job =>
      simp only
      split
      · exact .inl rfl
      · rename_i hguard
        have htask : job.taskName = taskName := by
          by_contra h
          exact hguard (.inl h)
        have hidle : job.status = .pending ∨ job.status = .error := by
          by_contra h
          exact hguard (.inr (not_or.mp h))
        split
        · rename_i hm
          exact .inr ⟨job, rfl, htask, hidle, resourceMatches_iff.mp hm, by
            simp [JobExecution.claim, htask]⟩
        · exact .inl rfl

theorem heartbeatExecution_cases (s : Store) (claim : ExecutionClaim) :
    (s.ownedExecution claim = none ∧ s.heartbeatExecution claim = (false, s)) ∨
      ∃ job, s.ownedExecution claim = some job ∧ s.heartbeatExecution claim =
        (true, s.modifyJob claim.jobId fun job => { job with claimedAt := some s.now }) := by
  unfold heartbeatExecution
  cases h : s.ownedExecution claim with
  | none => exact .inl ⟨rfl, rfl⟩
  | some job => exact .inr ⟨job, rfl, rfl⟩

/-- Writing a job row alone is a `put` that leaves the resource as it is. -/
theorem ledger_modifyJob {jobId : UUID} (g : JobExecution → JobExecution)
    (row : s.jobs.lookup jobId = some job) (owner : (g job).lease.owner = job.lease.owner) :
    (s.modifyJob jobId g).ledger = s.ledger.put jobId (g job).lease id := by
  rw [← ledger_put g id row owner]
  refine (ledger_congr (by simp) (fun type id => ?_) (by simp)).symm
  simp [lifecycle_modifyResource]

section Owned
variable (row : s.jobs.lookup claim.jobId = some job) (running : job.status = .running)
  (current : Matches catalogue s.ledger claim.jobId job.lease)
include row running current

theorem releaseExecution_steps {status : Status} (idle : status = .pending ∨ status = .error) :
    Steps catalogue s.ledger (s.releaseExecution claim job status).ledger := by
  unfold releaseExecution
  rw [ledger_put _ _ row rfl]
  exact .single (.release (by simp [ledger, row]) running current idle)

theorem settleExecution_steps :
    Steps catalogue s.ledger (s.settleExecution claim job).ledger := by
  unfold settleExecution
  rw [ledger_put _ _ row rfl]
  exact .single (.complete (by simp [ledger, row]) running current)

end Owned

theorem advanceExecution_ok {task : TaskName} {step : StepName} {mutate : Mutate} {b : Bool}
    (h : s.advanceExecution claim task step mutate = .ok (b, s')) :
    (s.ownedExecution claim = none ∧ b = false ∧ s' = s) ∨
      ∃ job s₁, s.ownedExecution claim = some job ∧ mutate job s = .ok s₁ ∧ b = true ∧
        s' = (s₁.modifyJob claim.jobId fun job =>
          { job with taskName := task, step := step, status := .pending, claimedAt := none }).modifyResource
            job fun r => { r with step := some step, status := .pending } := by
  unfold advanceExecution at h
  cases ho : s.ownedExecution claim with
  | none =>
      simp only [ho, Except.ok.injEq, Prod.mk.injEq] at h
      exact .inl ⟨rfl, h.1.symm, h.2.symm⟩
  | some job =>
      cases hm : mutate job s with
      | error e => simp [ho, hm, bind, Except.bind] at h
      | ok s₁ =>
          simp only [ho, hm, bind, Except.bind, pure, Except.pure, Except.ok.injEq,
            Prod.mk.injEq] at h
          exact .inr ⟨job, s₁, rfl, hm, h.1.symm, h.2.symm⟩

theorem completeExecution_ok {mutate : Mutate} {delete : Bool} {b : Bool}
    (h : s.completeExecution claim mutate delete = .ok (b, s')) :
    (s.ownedExecution claim = none ∧ b = false ∧ s' = s) ∨
      ∃ job s₁, s.ownedExecution claim = some job ∧ mutate job s = .ok s₁ ∧ b = true ∧
        s' = if delete then (s₁.modifyJob claim.jobId fun job =>
            { job with status := .success, claimedAt := none }).deleteResource job
          else s₁.settleExecution claim job := by
  unfold completeExecution at h
  cases ho : s.ownedExecution claim with
  | none =>
      simp only [ho, Except.ok.injEq, Prod.mk.injEq] at h
      exact .inl ⟨rfl, h.1.symm, h.2.symm⟩
  | some job =>
      cases hm : mutate job s with
      | error e => simp [ho, hm, bind, Except.bind] at h
      | ok s₁ =>
          cases delete <;>
          · simp only [ho, hm, bind, Except.bind, pure, Except.pure, Except.ok.injEq,
              Prod.mk.injEq, if_true, Bool.false_eq_true, if_false] at h
            exact .inr ⟨job, s₁, rfl, hm, h.1.symm, h.2.symm⟩

theorem deferExecution_ok {mutate : Mutate} {b : Bool}
    (h : s.deferExecution claim mutate = .ok (b, s')) :
    (s.ownedExecution claim = none ∧ b = false ∧ s' = s) ∨
      ∃ job s₁, s.ownedExecution claim = some job ∧ mutate job s = .ok s₁ ∧ b = true ∧
        s' = s₁.releaseExecution claim job .pending := by
  unfold deferExecution at h
  cases ho : s.ownedExecution claim with
  | none =>
      simp only [ho, Except.ok.injEq, Prod.mk.injEq] at h
      exact .inl ⟨rfl, h.1.symm, h.2.symm⟩
  | some job =>
      cases hm : mutate job s with
      | error e => simp [ho, hm, bind, Except.bind] at h
      | ok s₁ =>
          simp only [ho, hm, bind, Except.bind, pure, Except.pure, Except.ok.injEq,
            Prod.mk.injEq] at h
          exact .inr ⟨job, s₁, rfl, hm, h.1.symm, h.2.symm⟩

theorem failExecution_ok {mutate : Mutate} (h : s.failExecution claim mutate = .ok s') :
    (s.ownedExecution claim = none ∧ s' = s) ∨
      ∃ job s₁, s.ownedExecution claim = some job ∧ mutate job s = .ok s₁ ∧
        s' = s₁.releaseExecution claim job .error := by
  unfold failExecution at h
  cases ho : s.ownedExecution claim with
  | none =>
      simp only [ho, Except.ok.injEq] at h
      exact .inl ⟨rfl, h.symm⟩
  | some job =>
      cases hm : mutate job s with
      | error e => simp [ho, hm, bind, Except.bind] at h
      | ok s₁ =>
          simp only [ho, hm, bind, Except.bind, pure, Except.pure, Except.ok.injEq] at h
          exact .inr ⟨job, s₁, rfl, hm, h.symm⟩

/-- A retry is refused without a write, only names the task of a pending or
failed job, or returns a stale running attempt to pending. -/
theorem prepareExecutionRetry_cases (s : Store) (jobId : UUID) (staleBefore : Time) :
    s.prepareExecutionRetry jobId staleBefore = (none, s) ∨
      ∃ job, s.jobs.lookup jobId = some job ∧ Matches catalogue s.ledger jobId job.lease ∧
        (((job.status = .pending ∨ job.status = .error) ∧
            s.prepareExecutionRetry jobId staleBefore = (some job.taskName, s)) ∨
          (job.status = .running ∧ (∃ at_, job.claimedAt = some at_ ∧ at_ ≤ staleBefore) ∧
            s.prepareExecutionRetry jobId staleBefore = (some job.taskName,
              (s.modifyJob jobId fun job =>
                { job with status := .pending, claimedAt := none }).modifyResource job
                fun r => { r with status := .pending }))) := by
  unfold prepareExecutionRetry
  cases hrow : s.jobs.lookup jobId with
  | none => exact .inl rfl
  | some job =>
      simp only
      split
      · exact .inl rfl
      · rename_i hsuccess
        split
        · rename_i hm
          have hm := resourceMatches_iff.mp hm
          split
          · rename_i hrun
            cases hat : job.claimedAt with
            | none => exact .inl rfl
            | some claimedAt =>
                simp only
                split
                · exact .inl rfl
                · rename_i hle
                  exact .inr ⟨job, rfl, hm, .inr ⟨hrun, ⟨claimedAt, hat, Int.not_lt.mp hle⟩, rfl⟩⟩
          · rename_i hrun
            refine .inr ⟨job, rfl, hm, .inl ⟨?_, rfl⟩⟩
            cases hst : job.status with
            | pending => exact .inl rfl
            | error => exact .inr rfl
            | running => exact absurd hst hrun
            | success => exact absurd hst hsuccess
        · exact .inl rfl

end Store
end CoderManager
