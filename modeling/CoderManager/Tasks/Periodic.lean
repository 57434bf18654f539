import CoderManager.Tasks.Workspaces

/-!
# Periodic tasks

The recovery scan and the state observer.
-/
namespace CoderManager
open Programs
namespace Tasks

def retryJob (staleBefore : Time) (counts : Nat × Nat) (jobId : UUID) : Worker (Nat × Nat) := do
  let dispatched ← match ← transact (.prepareExecutionRetry jobId staleBefore) with
    | none => pure false
    | some taskName => dispatchRegisteredStep taskName jobId
  return if dispatched then (counts.1 + 1, counts.2) else (counts.1, counts.2 + 1)

def retryJobExecutions (jobStaleAfterSeconds : Nat) : Worker (Nat × Nat) := do
  let now ← query .now
  let staleBefore := now - jobStaleAfterSeconds
  let jobIds ← query (.retryableJobIds staleBefore)
  foldEach jobIds (0, 0) (retryJob staleBefore)

structure ObservationCounts where
  checked : Nat
  changed : Nat
  errors : Nat
  deriving DecidableEq, Repr

def observeInstance (counts : ObservationCounts) (snapshot : InstanceStateSnapshot) :
    Worker ObservationCounts := do
  let observation ← tryCatch
    (do
      return some (← request (.instanceApplicationExists snapshot.id snapshot.slug
        snapshot.attachedName)))
    (fun _ => return none)
  match observation with
  | none => return { counts with errors := counts.errors + 1 }
  | some applicationExists =>
      let observed := if applicationExists then InstanceState.started else .stopped
      let changed ← transact (.recordInstanceState snapshot observed)
      return { counts with
        checked := counts.checked + 1
        changed := if changed then counts.changed + 1 else counts.changed }

def checkInstanceStates : Worker ObservationCounts := do
  let instances ← query .observedInstances
  foldEach instances ⟨0, 0, 0⟩ observeInstance

end Tasks
end CoderManager
