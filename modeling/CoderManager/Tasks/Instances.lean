import CoderManager.Domains.Coder

/-!
# Instance steps

The bodies of the create, update, start, stop and delete steps. Every body runs
under `runClaimedStep`, which fails the attempt on any exception. `step_02_stop_instance`
is `stopInstance` here, and so on.
-/
namespace CoderManager
open Programs

/-- The `status` a task returns. -/
inductive TaskStatus where
  | noop
  | pending
  | deferred
  | success
  | deleted
  deriving DecidableEq, Repr

def liftExcept {α : Type} : Except WorkerError α → Worker α
  | .ok a => pure a
  | .error e => throw e

/-- `dispatch_registered_step`: an unknown name is never sent, and a broker
error is reported as not accepted. -/
def dispatchRegisteredStep (taskName : TaskName) (jobId : UUID) : Worker Bool :=
  if taskName.isRegistered then tryCatch (request (.delay taskName jobId)) fun _ => pure false
  else pure false

/-- `advance_execution`: the next step is dispatched after the commit. -/
def advanceTo (claim : ExecutionClaim) (step : StepName) (mutate : Mutation) : Worker TaskStatus := do
  if ← transact (.advanceExecution claim step.task step mutate) then
    let _ ← dispatchRegisteredStep step.task claim.jobId
    return .pending
  else return .noop

def complete (claim : ExecutionClaim) (mutate : Mutation) : Worker TaskStatus := do
  return if ← transact (.completeExecution claim mutate false) then .success else .noop

def defer (claim : ExecutionClaim) (mutate : Mutation) : Worker TaskStatus := do
  return if ← transact (.deferExecution claim mutate) then .deferred else .noop

def runClaimedStep (jobId : UUID) (taskName : TaskName)
    (operation : ExecutionClaim → Worker TaskStatus) : Worker TaskStatus := do
  match ← transact (.claimExecution jobId taskName) with
  | none => return .noop
  | some claim =>
      tryCatch (operation claim) fun error => do
        transact (.failExecution claim .none)
        throw error

/-- The `_heartbeat_owned` helpers, which differ in their message. -/
def heartbeatOwned (claim : ExecutionClaim) (lost : WorkerError) : Worker Unit := do
  if !(← transact (.heartbeatExecution claim)) then throw lost

def instanceHelmValues (instanceId : UUID) (slug : String) : Worker InstanceHelmValues := do
  match ← query (.managedDatabaseTarget instanceId) with
  | none => throw (.runtimeError "Instance database allocation is missing")
  | some (target, managedDatabaseName) =>
      let kubeconfig ← query (.storedKubeconfig instanceId)
      return { slug, publicUrl := instanceId, target, managedDatabaseName, kubeconfig }

def requiredAdminPassword (instanceId : UUID) : Worker (InstanceUrl × String) := do
  match ← query (.storedAdminPassword instanceId) with
  | none => throw (.runtimeError "Instance administrator password is missing")
  | some credentials => return credentials

def reconcile (instanceId : UUID) (slug : String) (attachedName : Option String)
    (members : List (String × MemberRole)) : Worker ArgoCdReconcileResult := do
  let helmValues ← instanceHelmValues instanceId slug
  request (.reconcileInstanceApplication instanceId slug attachedName members helmValues)

namespace Tasks

def createSchema (claim : ExecutionClaim) : Worker TaskStatus := do
  let instanceId ← liftExcept claim.requiredResourceId
  match ← query (.managedDatabaseTarget instanceId) with
  | none => throw (.runtimeError "Instance database allocation is missing")
  | some (target, _) =>
      request (.createSchema target)
      advanceTo claim .instanceCreateStep02 .none

def createInstance (claim : ExecutionClaim) : Worker TaskStatus := do
  let snapshot ← query (.instanceSnapshot claim.resourceId (.typeError "Instance is missing"))
  let reconciliation ← reconcile snapshot.instanceId snapshot.slug snapshot.attachedName
    snapshot.members
  match reconciliation.status with
  | .deferred => defer claim .none
  | .completed =>
      advanceTo claim .instanceCreateStep03
        (.storeApplicationName reconciliation.applicationName (.typeError "Instance is missing"))

def bootstrapAdmin (claim : ExecutionClaim) : Worker TaskStatus := do
  match ← transact (.prepareBootstrap claim) with
  | none => return .noop
  | some preparation =>
      match preparation.password with
      | none => pure ()
      | some password => Coder.bootstrapAdminAccount preparation.instanceUrl password
      if preparation.isUpdate then advanceTo claim .instanceUpdateStep02 .promotePassword
      else complete claim .promotePassword

/-- `step_01_update_instance`. Members are claimed and reconciled even when the
attempt has lost its claim meanwhile; only the transactions after that are
fenced. -/
def updateInstance (claim : ExecutionClaim) : Worker TaskStatus := do
  let claimed ← transact (.claimMembers claim)
  let reconciliation ← tryCatch
    (do
      let instanceId ← liftExcept claim.requiredResourceId
      reconcile instanceId claimed.slug claimed.attachedName claimed.members)
    (fun error => do
      transact (.failExecution claim (.failMembers claimed.memberIds))
      throw error)
  match reconciliation.status with
  | .deferred => defer claim (.deferMembers claimed.memberIds)
  | .completed =>
      advanceTo claim .instanceUpdateStep02
        (.storeApplicationName reconciliation.applicationName
          (.typeError "Instance update resource is missing"))

/-- `step_02_cleanup_users`. `protectedUsernames` are the static and the default
administrators. -/
def cleanupUsers (protectedUsernames : List String) (claim : ExecutionClaim) : Worker TaskStatus := do
  let claimed ← transact (.claimCleanup claim)
  let instanceId ← liftExcept claim.requiredResourceId
  let (url, password) ← requiredAdminPassword instanceId
  let _ ← tryCatch
    (Coder.cleanupUserAccounts url password (claimed.expectedUsernames ++ protectedUsernames)
      (heartbeatOwned claim (.runtimeError "Instance update attempt is no longer current")))
    (fun error => do
      transact (.failExecution claim (.failMembers claimed.memberIds))
      throw error)
  match ← transact (.finalizeUpdate claim claimed.memberIds claimed.applicationName) with
  | .noop => return .noop
  | .success => return .success
  | .pending nextJobId =>
      let _ ← dispatchRegisteredStep StepName.instanceUpdateStep01.task nextJobId
      return .pending

def startInstance (claim : ExecutionClaim) : Worker TaskStatus := do
  let snapshot ← query (.instanceSnapshot claim.resourceId (.runtimeError "Instance is missing"))
  let _ ← requiredAdminPassword snapshot.instanceId
  let reconciliation ← reconcile snapshot.instanceId snapshot.slug snapshot.attachedName
    snapshot.members
  match reconciliation.status with
  | .deferred => defer claim .none
  | .completed =>
      advanceTo claim .instanceUpdateStep02
        (.storeApplicationName reconciliation.applicationName (.typeError "Instance is missing"))

def stopWorkspaces (fuel : Nat) (claim : ExecutionClaim) : Worker TaskStatus := do
  let snapshot ← query (.instanceSnapshot claim.resourceId (.runtimeError "Instance is missing"))
  let instanceId ← liftExcept claim.requiredResourceId
  if ← request (.instanceApplicationExists instanceId snapshot.slug snapshot.attachedName) then
    let (url, password) ← requiredAdminPassword instanceId
    let _ ← Coder.stopActiveWorkspaces url password
      (heartbeatOwned claim (.runtimeError "Instance stop attempt is no longer current")) fuel
  advanceTo claim .instanceStopStep02 .none

def stopInstance (claim : ExecutionClaim) : Worker TaskStatus := do
  let snapshot ← query (.instanceSnapshot claim.resourceId (.runtimeError "Instance is missing"))
  let instanceId ← liftExcept claim.requiredResourceId
  match ← request (.deleteInstanceApplication instanceId snapshot.slug snapshot.attachedName) with
  | .deferred => defer claim .none
  | .completed => complete claim .markStopped

/-- `step_01_remove_workspaces`: a missing Application is restored first. -/
def removeWorkspaces (fuel : Nat) (claim : ExecutionClaim) : Worker TaskStatus := do
  let snapshot ← query (.instanceSnapshot claim.resourceId (.runtimeError "Instance is missing"))
  let instanceId ← liftExcept claim.requiredResourceId
  let (url, password) ← requiredAdminPassword instanceId
  let restored ←
    if ← request (.instanceApplicationExists snapshot.instanceId snapshot.slug
        snapshot.attachedName) then
      pure (some snapshot.attachedName)
    else do
      let reconciliation ← reconcile snapshot.instanceId snapshot.slug snapshot.attachedName
        snapshot.members
      match reconciliation.status with
      | .deferred => pure none
      | .completed => pure (some (some reconciliation.applicationName))
  match restored with
  | none => defer claim .none
  | some restoredName =>
      if ← transact (.storeStartedApplication claim restoredName) then
        let _ ← Coder.deleteAllWorkspaces url password
          (heartbeatOwned claim (.runtimeError "Instance delete attempt is no longer current")) fuel
        advanceTo claim .instanceDeleteStep02 .none
      else return .noop

def removeInstance (claim : ExecutionClaim) : Worker TaskStatus := do
  let snapshot ← query (.instanceSnapshot claim.resourceId (.runtimeError "Instance is missing"))
  let instanceId ← liftExcept claim.requiredResourceId
  match ← request (.deleteInstanceApplication instanceId snapshot.slug snapshot.attachedName) with
  | .deferred => defer claim .none
  | .completed => advanceTo claim .instanceDeleteStep03 .markStopped

def removeSchema (claim : ExecutionClaim) : Worker TaskStatus := do
  let instanceId ← liftExcept claim.requiredResourceId
  match ← query (.managedDatabaseTarget instanceId) with
  | none => pure ()
  | some (target, _) => request (.dropSchema target)
  advanceTo claim .instanceDeleteStep04 .none

def removeLocalConfiguration (claim : ExecutionClaim) : Worker TaskStatus := do
  return if ← transact (.removeLocalConfiguration claim) then .deleted else .noop

end Tasks
end CoderManager
