import CoderManager.Models
import Mathlib.Data.List.Sort

/-!
# Transactional ownership of durable steps

Each function is one transaction of the worker's execution helpers: it either
commits the store it returns or raises and leaves the store as it was.
-/
namespace CoderManager

/-- What a worker body may raise. -/
inductive WorkerError where
  | databaseError
  | runtimeError (message : String)
  | typeError (message : String)
  | decryptionError
  | postgresqlError
  | argoCdError
  | templateSourceError
  | httpError
  | coderRequestError (message : String)
  | coderFirstUserConflictError
  | templateTargetSyncError (message : String)
  | templateTargetClaimLostError (message : String)
  | workspaceRemoteError (message : String)
  deriving DecidableEq, Repr

/-- Ownership token fencing one concrete execution attempt. -/
structure ExecutionClaim where
  jobId : UUID
  taskName : TaskName
  step : StepName
  attempt : Nat
  resourceType : Option ResourceType
  resourceId : Option UUID
  deriving DecidableEq, Repr

/-- A callback run inside an owned transaction, before the job is written. It is
given the owned job, whose resource it may change. -/
abbrev Mutate := JobExecution → Store → Except WorkerError Store

def JobExecution.claim (job : JobExecution) (id : UUID) : ExecutionClaim where
  jobId := id
  taskName := job.taskName
  step := job.step
  attempt := job.attempt
  resourceType := job.resourceType
  resourceId := job.resourceId

namespace Store

def resourceForJob (s : Store) (job : JobExecution) : Option Lifecycle :=
  match job.resourceType, job.resourceId with
  | some type, some id => s.lifecycle type id
  | _, _ => none

def modifyResource (s : Store) (job : JobExecution) (f : Lifecycle → Lifecycle) : Store :=
  match job.resourceType, job.resourceId with
  | some type, some id => s.modifyLifecycle type id f
  | _, _ => s

def modifyJob (s : Store) (id : UUID) (f : JobExecution → JobExecution) : Store :=
  { s with jobs := s.jobs.modify id f }

end Store

def resourceMatches (id : UUID) (job : JobExecution) (resource : Option Lifecycle) : Bool :=
  match job.resourceType with
  | none => true
  | some _ =>
      match resource with
      | none => false
      | some resource =>
          match resourceActions job.name with
          | none => false
          | some action =>
              resource.jobId == some id && resource.action == action &&
                resource.step == some job.step

namespace Store

def claimExecution (s : Store) (jobId : UUID) (taskName : TaskName) :
    Option ExecutionClaim × Store :=
  match s.jobs.lookup jobId with
  | none => (none, s)
  | some job =>
      if job.taskName ≠ taskName ∨ (job.status ≠ .pending ∧ job.status ≠ .error) then (none, s)
      else if resourceMatches jobId job (s.resourceForJob job) then
        let job' :=
          { job with status := .running, attempt := job.attempt + 1, claimedAt := some s.now }
        (some (job'.claim jobId), (s.modifyJob jobId fun _ => job').modifyResource job
          fun r => { r with status := .running })
      else (none, s)

def ownedExecution (s : Store) (claim : ExecutionClaim) : Option JobExecution :=
  match s.jobs.lookup claim.jobId with
  | none => none
  | some job =>
      if job.taskName = claim.taskName ∧ job.step = claim.step ∧ job.attempt = claim.attempt ∧
          job.status = .running ∧ resourceMatches claim.jobId job (s.resourceForJob job) = true
      then some job else none

def advanceExecution (s : Store) (claim : ExecutionClaim) (nextTaskName : TaskName)
    (nextStep : StepName) (mutate : Mutate) : Except WorkerError (Bool × Store) :=
  match s.ownedExecution claim with
  | none => .ok (false, s)
  | some job => do
      let s ← mutate job s
      let s := s.modifyJob claim.jobId fun job =>
        { job with taskName := nextTaskName, step := nextStep, status := .pending, claimedAt := none }
      return (true, s.modifyResource job fun r => { r with step := some nextStep, status := .pending })

/-- The owned part of `complete_execution`: the job succeeds and its resource
settles. -/
def settleExecution (s : Store) (claim : ExecutionClaim) (job : JobExecution) : Store :=
  (s.modifyJob claim.jobId fun job => { job with status := .success, claimedAt := none }).modifyResource
    job fun r => { r with status := .success, step := none }

def deleteLifecycle (s : Store) (type : ResourceType) (id : UUID) : Store :=
  match type with
  | .instance => { s with instances := s.instances.erase id }
  | .template => { s with templates := s.templates.erase id }
  | .templateAssignment => { s with assignments := s.assignments.erase id }
  | .workspace => { s with workspaces := s.workspaces.erase id }

def deleteResource (s : Store) (job : JobExecution) : Store :=
  match job.resourceType, job.resourceId with
  | some type, some id => s.deleteLifecycle type id
  | _, _ => s

def completeExecution (s : Store) (claim : ExecutionClaim) (mutate : Mutate)
    (deleteResource : Bool) : Except WorkerError (Bool × Store) :=
  match s.ownedExecution claim with
  | none => .ok (false, s)
  | some job => do
      let s ← mutate job s
      if deleteResource then
        return (true, (s.modifyJob claim.jobId fun job =>
          { job with status := .success, claimedAt := none }).deleteResource job)
      else return (true, s.settleExecution claim job)

/-- Return an owned execution and its resource to one status at the same step. -/
def releaseExecution (s : Store) (claim : ExecutionClaim) (job : JobExecution)
    (status : Status) : Store :=
  (s.modifyJob claim.jobId fun job => { job with status := status, claimedAt := none }).modifyResource
    job fun r => { r with status := status }

def deferExecution (s : Store) (claim : ExecutionClaim) (mutate : Mutate) :
    Except WorkerError (Bool × Store) :=
  match s.ownedExecution claim with
  | none => .ok (false, s)
  | some job => do
      let s ← mutate job s
      return (true, s.releaseExecution claim job .pending)

def failExecution (s : Store) (claim : ExecutionClaim) (mutate : Mutate) :
    Except WorkerError Store :=
  match s.ownedExecution claim with
  | none => .ok s
  | some job => do
      let s ← mutate job s
      return s.releaseExecution claim job .error

def heartbeatExecution (s : Store) (claim : ExecutionClaim) : Bool × Store :=
  match s.ownedExecution claim with
  | none => (false, s)
  | some _ => (true, s.modifyJob claim.jobId fun job => { job with claimedAt := some s.now })

def prepareExecutionRetry (s : Store) (jobId : UUID) (staleBefore : Time) :
    Option TaskName × Store :=
  match s.jobs.lookup jobId with
  | none => (none, s)
  | some job =>
      if job.status = .success then (none, s)
      else if resourceMatches jobId job (s.resourceForJob job) then
        if job.status = .running then
          match job.claimedAt with
          | none => (none, s)
          | some claimedAt =>
              if claimedAt > staleBefore then (none, s)
              else (some job.taskName,
                (s.modifyJob jobId fun job => { job with status := .pending, claimedAt := none }).modifyResource
                  job fun r => { r with status := .pending })
        else (some job.taskName, s)
      else (none, s)

/-- The rows selected by one recovery scan. -/
def isRetryable (job : JobExecution) (staleBefore : Time) : Bool :=
  job.status == .pending || job.status == .error ||
    (job.status == .running &&
      match job.claimedAt with
      | none => false
      | some claimedAt => claimedAt ≤ staleBefore)

/-- Jobs ordered by `(created_at, id)`. -/
def olderJob (a b : UUID × JobExecution) : Prop :=
  a.2.createdAt < b.2.createdAt ∨ (a.2.createdAt = b.2.createdAt ∧ a.1 ≤ b.1)

instance : DecidableRel olderJob := fun _ _ => inferInstanceAs (Decidable (_ ∨ _))

def retryableJobIds (s : Store) (staleBefore : Time) : List UUID :=
  ((s.jobs.select fun _ job => isRetryable job staleBefore).insertionSort olderJob).map Prod.fst

end Store

def ExecutionClaim.requiredResourceId (claim : ExecutionClaim) : Except WorkerError UUID :=
  match claim.resourceId with
  | none => .error (.runtimeError "Job resource is missing")
  | some id => .ok id

end CoderManager
