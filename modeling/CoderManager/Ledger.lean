import CoderManager.Execution
import CoderManager.Lib.Fencing

/-!
# The database as a ledger of leases

The job rows and the lifecycle columns of the resources, seen as a lease
ledger. Each execution helper is then one step of the ledger, or none.
-/
namespace CoderManager
open Tables

abbrev Ledger := Leases.Ledger UUID Key JobName Action TaskName StepName

def JobExecution.lease (job : JobExecution) : Leases.Job Key JobName TaskName StepName where
  name := job.name
  owner := job.resourceType.map fun type => (type, job.resourceId)
  task := job.taskName
  step := job.step
  status := job.status
  attempt := job.attempt
  claimedAt := job.claimedAt

theorem JobExecution.lease_owner {job : JobExecution} {type : ResourceType} {id : Option UUID} :
    job.lease.owner = some (type, id) ↔ job.resourceType = some type ∧ job.resourceId = id := by
  simp [JobExecution.lease]

def ExecutionClaim.token (claim : ExecutionClaim) : Leases.Token UUID TaskName StepName :=
  ⟨claim.jobId, claim.taskName, claim.step, claim.attempt⟩

namespace Store

def ledger (s : Store) : Ledger where
  jobs := fun id => (s.jobs.lookup id).map JobExecution.lease
  owners := fun key => key.2.bind (s.lifecycle key.1)
  used := { id | id < s.nextId }

section Frame
variable (s : Store) (type : ResourceType) (id : UUID) (f : Lifecycle → Lifecycle)

theorem lifecycle_modifyLifecycle (type' : ResourceType) (id' : UUID) :
    (s.modifyLifecycle type id f).lifecycle type' id' =
      if type' = type ∧ id' = id then (s.lifecycle type' id').map f else s.lifecycle type' id' := by
  by_cases hid : id' = id
  · subst hid
    cases type <;> cases type' <;>
      simp [modifyLifecycle, lifecycle, Option.map_map, Function.comp_def]
  · cases type <;> cases type' <;>
      simp [modifyLifecycle, lifecycle, Table.lookup_modify_ne, hid]

@[simp] theorem jobs_modifyLifecycle : (s.modifyLifecycle type id f).jobs = s.jobs := by
  cases type <;> rfl

@[simp] theorem nextId_modifyLifecycle : (s.modifyLifecycle type id f).nextId = s.nextId := by
  cases type <;> rfl

@[simp] theorem now_modifyLifecycle : (s.modifyLifecycle type id f).now = s.now := by
  cases type <;> rfl

@[simp] theorem lifecycle_modifyJob (jobId : UUID) (g : JobExecution → JobExecution) :
    (s.modifyJob jobId g).lifecycle = s.lifecycle := by
  funext type id
  cases type <;> rfl

theorem ledger_congr {s s' : Store} (jobs : s'.jobs = s.jobs)
    (lifecycle : ∀ type id, s'.lifecycle type id = s.lifecycle type id)
    (nextId : s'.nextId = s.nextId) : s'.ledger = s.ledger := by
  refine Leases.Ledger.ext ?_ ?_ ?_
  · simp [ledger, jobs]
  · funext key
    cases h : key.2 <;> simp [ledger, h, lifecycle]
  · simp [ledger, nextId]

theorem lifecycle_modifyResource (job : JobExecution) (type' : ResourceType) (id' : UUID) :
    (s.modifyResource job f).lifecycle type' id' =
      if job.lease.owner = some (type', some id') then (s.lifecycle type' id').map f
      else s.lifecycle type' id' := by
  unfold modifyResource
  cases htype : job.resourceType with
  | none => simp [JobExecution.lease, htype]
  | some type =>
      cases hid : job.resourceId with
      | none => simp [JobExecution.lease, htype, hid]
      | some id =>
          simp only [lifecycle_modifyLifecycle, JobExecution.lease, htype, hid, Option.map_some,
            Option.some.injEq, Prod.mk.injEq]
          by_cases h : type' = type ∧ id' = id
          · simp [h.1, h.2]
          · simp only [h, if_false]
            rw [if_neg]
            rintro ⟨rfl, rfl⟩
            exact h ⟨rfl, rfl⟩

@[simp] theorem jobs_modifyResource (job : JobExecution) :
    (s.modifyResource job f).jobs = s.jobs := by
  unfold modifyResource
  split <;> simp

@[simp] theorem nextId_modifyResource (job : JobExecution) :
    (s.modifyResource job f).nextId = s.nextId := by
  unfold modifyResource
  split <;> simp

theorem ledger_put {s : Store} {jobId : UUID} {job : JobExecution} (g : JobExecution → JobExecution)
    (f : Lifecycle → Lifecycle) (row : s.jobs.lookup jobId = some job)
    (owner : (g job).lease.owner = job.lease.owner) :
    ((s.modifyJob jobId g).modifyResource job f).ledger =
      s.ledger.put jobId (g job).lease f := by
  refine Leases.Ledger.ext ?_ ?_ ?_
  · funext i
    by_cases hi : i = jobId
    · simp [ledger, Leases.Ledger.put, modifyJob, hi, row]
    · simp [ledger, Leases.Ledger.put, modifyJob, hi, Table.lookup_modify_ne]
  · funext key
    obtain ⟨type, id⟩ := key
    cases id with
    | none => simp [ledger, Leases.Ledger.put]
    | some id => simp [ledger, Leases.Ledger.put, lifecycle_modifyResource, owner]
  · simp [ledger, Leases.Ledger.put, modifyJob]

end Frame

/-- `_resource_matches` is the ledger's own test. -/
theorem resourceMatches_iff {s : Store} {jobId : UUID} {job : JobExecution} :
    resourceMatches jobId job (s.resourceForJob job) = true ↔
      Leases.Matches catalogue s.ledger jobId job.lease := by
  unfold resourceMatches Leases.Matches resourceForJob
  cases htype : job.resourceType with
  | none => simp [JobExecution.lease, htype]
  | some type =>
      cases hid : job.resourceId with
      | none => simp [JobExecution.lease, htype, hid, ledger]
      | some id =>
          cases hrow : s.lifecycle type id with
          | none => simp [JobExecution.lease, htype, hid, ledger, hrow]
          | some c =>
              cases hact : resourceActions job.name with
              | none => simp [JobExecution.lease, htype, hid, ledger, hrow, catalogue, hact]
              | some a =>
                  simp [JobExecution.lease, htype, hid, ledger, hrow, catalogue, hact, and_assoc,
                    eq_comm (a := c.action)]

theorem ownedExecution_eq_some {s : Store} {claim : ExecutionClaim} {job : JobExecution} :
    s.ownedExecution claim = some job ↔
      s.jobs.lookup claim.jobId = some job ∧ job.taskName = claim.taskName ∧
        job.step = claim.step ∧ job.attempt = claim.attempt ∧ job.status = .running ∧
        Leases.Matches catalogue s.ledger claim.jobId job.lease := by
  unfold ownedExecution
  cases hrow : s.jobs.lookup claim.jobId with
  | none => simp
  | some row =>
      simp only [resourceMatches_iff, Option.some.injEq, Option.ite_none_right_eq_some]
      constructor
      · rintro ⟨h, rfl⟩
        exact ⟨rfl, h⟩
      · rintro ⟨rfl, h⟩
        exact ⟨h, rfl⟩

/-- `owned_execution` answers exactly while the lease is current. -/
theorem ownedExecution_isSome_iff {s : Store} {claim : ExecutionClaim} :
    (s.ownedExecution claim).isSome = true ↔ Leases.Owned catalogue s.ledger claim.token := by
  rw [Option.isSome_iff_exists]
  constructor
  · rintro ⟨job, h⟩
    obtain ⟨hrow, htask, hstep, hatt, hrun, hm⟩ := ownedExecution_eq_some.mp h
    exact ⟨job.lease, by simp [ledger, ExecutionClaim.token, hrow], htask, hstep, hatt, hrun, hm⟩
  · rintro ⟨b, hb, htask, hstep, hatt, hrun, hm⟩
    simp only [ledger, ExecutionClaim.token, Option.map_eq_some_iff] at hb
    obtain ⟨job, hrow, rfl⟩ := hb
    exact ⟨job, ownedExecution_eq_some.mpr ⟨hrow, htask, hstep, hatt, hrun, hm⟩⟩

end Store
end CoderManager
