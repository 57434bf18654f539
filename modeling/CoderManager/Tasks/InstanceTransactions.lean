import CoderManager.Execution

/-!
# Transactions of the instance steps

What the instance step bodies read and write in the database between their
remote calls.
-/
namespace CoderManager

/-- The public URL of an instance, named by the instance it serves: the source
builds it from the slug, which is unique and never changes. -/
abbrev InstanceUrl := UUID

structure SchemaTarget where
  host : String
  port : Nat
  databaseName : String
  username : String
  password : String
  schemaName : String
  deriving DecidableEq, Repr

structure InstanceHelmValues where
  slug : String
  publicUrl : InstanceUrl
  target : SchemaTarget
  managedDatabaseName : String
  kubeconfig : Option String
  deriving DecidableEq, Repr

structure InstanceSnapshot where
  instanceId : UUID
  slug : String
  attachedName : Option String
  members : List (String × MemberRole)
  deriving DecidableEq, Repr

structure BootstrapPreparation where
  instanceUrl : InstanceUrl
  isUpdate : Bool
  password : Option String
  deriving DecidableEq, Repr

/-- `_claim_members`. -/
structure ClaimedMembers where
  memberIds : List UUID
  members : List (String × MemberRole)
  slug : String
  attachedName : Option String
  publicUrl : InstanceUrl
  deriving DecidableEq, Repr

/-- `_claim_cleanup`. -/
structure ClaimedCleanup where
  memberIds : List UUID
  expectedUsernames : List String
  applicationName : String
  deriving DecidableEq, Repr

structure InstanceStateSnapshot where
  id : UUID
  slug : String
  attachedName : Option String
  jobId : Option UUID
  action : Action
  status : Status
  deriving DecidableEq, Repr

def memberBefore (a b : UUID × Member) : Prop :=
  a.2.username < b.2.username ∨ (a.2.username = b.2.username ∧ a.1 ≤ b.1)

instance : DecidableRel memberBefore := fun _ _ => inferInstanceAs (Decidable (_ ∨ _))

def found {α : Type} (row : Option α) (error : WorkerError) : Except WorkerError α :=
  match row with
  | some a => .ok a
  | none => .error error

namespace Store

def storedMembers (s : Store) (instanceId : UUID) : List (UUID × Member) :=
  (s.members.select fun _ m => m.instanceId == instanceId).insertionSort memberBefore

def activeMembers (s : Store) (instanceId : UUID) : List (String × MemberRole) :=
  ((s.storedMembers instanceId).filter fun m => m.2.action != .deleting).map
    fun m => (m.2.username, m.2.role)

/-- `session.get(Instance, claim.resource_id)`. -/
def claimedInstance (s : Store) (resourceId : Option UUID) : Option (UUID × Instance) := do
  let id ← resourceId
  let i ← s.instances.lookup id
  return (id, i)

def managedDatabaseTarget (s : Store) (instanceId : UUID) :
    Except WorkerError (Option (SchemaTarget × String)) :=
  match s.allocations.lookup instanceId with
  | none => .ok none
  | some allocation =>
      match s.databases.lookup allocation.databaseId with
      | none => .ok none
      | some d => do
          let password ← found (d.passwordEnc.decrypt allocation.databaseId) .decryptionError
          return some ({
            host := d.host, port := d.port, databaseName := d.databaseName, username := d.username
            password, schemaName := allocation.schemaName }, d.name)

/-- The kubeconfig half of `instance_helm_values`. -/
def storedKubeconfig (s : Store) (instanceId : UUID) : Except WorkerError (Option String) :=
  match s.kubernetesProviders.lookup instanceId with
  | none => .ok none
  | some provider => do
      return some (← found (provider.kubeconfigEnc.decrypt instanceId) .decryptionError)

/-- The snapshot a step body takes of its instance; `missing` is what the body
raises when the row is gone. -/
def instanceSnapshot (s : Store) (resourceId : Option UUID) (missing : WorkerError) :
    Except WorkerError InstanceSnapshot := do
  let (id, i) ← found (s.claimedInstance resourceId) missing
  return { instanceId := id, slug := i.slug, attachedName := i.argocdApplicationName
           members := s.activeMembers id }

def storedAdminPassword (s : Store) (instanceId : UUID) :
    Except WorkerError (Option (InstanceUrl × String)) := do
  let i ← found (s.instances.lookup instanceId) (.runtimeError "Instance is missing")
  match i.passwordEnc with
  | none => return none
  | some envelope =>
      return some (instanceId, ← found (envelope.decrypt instanceId) .decryptionError)

def ownedInstance (s : Store) (job : JobExecution) : Option (UUID × Instance) :=
  if job.resourceType = some .instance then s.claimedInstance job.resourceId else none

/-- `_prepare_bootstrap`. `token` is what `token_urlsafe` draws. -/
def prepareBootstrap (s : Store) (claim : ExecutionClaim) (token : String) :
    Except WorkerError (Option BootstrapPreparation × Store) :=
  match s.ownedExecution claim with
  | none => .ok (none, s)
  | some job => do
      let (id, i) ← found (s.ownedInstance job) (.typeError "Instance is missing")
      let prepared := fun password => some {
        instanceUrl := id, isUpdate := job.name == .instanceUpdate, password : BootstrapPreparation }
      match i.passwordEnc, i.passwordCandidateEnc with
      | some _, _ => return (prepared none, s)
      | none, some candidate =>
          return (prepared (some (← found (candidate.decrypt id) .decryptionError)), s)
      | none, none =>
          let instances := s.instances.modify id fun i =>
            { i with passwordCandidateEnc := some (.encrypt token id) }
          return (prepared (some token), { s with instances })

/-- `_claim_members`: it reads the instance without asking for ownership. -/
def claimMembers (s : Store) (claim : ExecutionClaim) :
    Except WorkerError (ClaimedMembers × Store) := do
  let (id, i) ← found (s.claimedInstance claim.resourceId) (.runtimeError "Instance is missing")
  let stored := s.storedMembers id
  let members := s.members.updateWhere (fun _ m => m.instanceId == id && m.status.isActive)
    (fun m => { m with status := .running })
  return ({
    memberIds := (stored.filter fun m => m.2.status.isActive).map Prod.fst
    members := s.activeMembers id
    slug := i.slug, attachedName := i.argocdApplicationName, publicUrl := id },
    { s with members })

def releaseMembers (s : Store) (memberIds : List UUID) (status : Status) : Store :=
  let members := s.members.updateWhere
    (fun id m => memberIds.contains id && m.status == .running) (fun m => { m with status })
  { s with members }

def claimCleanup (s : Store) (claim : ExecutionClaim) :
    Except WorkerError (ClaimedCleanup × Store) := do
  let (id, i) ← found (s.claimedInstance claim.resourceId) (.runtimeError "Instance is missing")
  let applicationName ← found i.argocdApplicationName
    (.runtimeError "Instance Argo CD application name is missing")
  if applicationName = "" then
    throw (.runtimeError "Instance Argo CD application name is missing")
  let stored := s.storedMembers id
  let claimed := fun (m : Member) => m.status == .running || m.status == .error
  let members := s.members.updateWhere (fun _ m => m.instanceId == id && claimed m)
    (fun m => { m with status := .running })
  return ({
    memberIds := (stored.filter fun m => claimed m.2).map Prod.fst
    expectedUsernames :=
      (stored.filter fun m => m.2.action != .deleting || !claimed m.2).map fun m => m.2.username
    applicationName }, { s with members })

/-- Members claimed by this cleanup: removed when deleting, else successful. A
removed member takes its workspaces along. -/
def finalizeMembers (s : Store) (instanceId : UUID) (memberIds : List UUID) : Store :=
  let finished := fun (id : UUID) (m : Member) =>
    memberIds.contains id && m.instanceId == instanceId && m.status == .running
  let removed := fun memberId =>
    (s.members.lookup memberId).any fun m => finished memberId m && m.action == .deleting
  { s with
    members := (s.members.deleteWhere fun id m => finished id m && m.action == .deleting).updateWhere
      finished fun m => { m with status := .success }
    workspaces := s.workspaces.deleteWhere fun _ w => removed w.memberId }

inductive UpdateResult where
  | noop
  | success
  | pending (nextJobId : UUID)
  deriving DecidableEq, Repr

def finalizeUpdate (s : Store) (claim : ExecutionClaim) (memberIds : List UUID)
    (applicationName : String) : Except WorkerError (UpdateResult × Store) :=
  match s.ownedExecution claim with
  | none => .ok (.noop, s)
  | some job =>
      match s.ownedInstance job with
      | none => .ok (.noop, s)
      | some (id, _) =>
          let instances := s.instances.modify id fun i =>
            { i with argocdApplicationName := some applicationName }
          let s := { s with instances }.finalizeMembers id memberIds
          let s := s.settleExecution claim job
          if s.members.any fun _ m => m.instanceId == id && m.status == .pending then
            let (nextJobId, s) := s.addJobExecution .instanceUpdate
              StepName.instanceUpdateStep01.task (some .instance) (some id) .instanceUpdateStep01
            .ok (.pending nextJobId, s.modifyLifecycle .instance id fun _ => {
              action := .updating, status := .pending, jobId := some nextJobId
              step := some .instanceUpdateStep01 })
          else .ok (.success, s)

def storeStartedApplication (s : Store) (claim : ExecutionClaim) (applicationName : Option String) :
    Except WorkerError (Bool × Store) :=
  match s.ownedExecution claim with
  | none => .ok (false, s)
  | some job => do
      let (id, _) ← found (s.ownedInstance job) (.typeError "Instance is missing")
      let instances := s.instances.modify id fun i => { i with
        argocdApplicationName := applicationName <|> i.argocdApplicationName
        state := .started }
      return (true, { s with instances })

/-- The rows `step_04_remove_local_configuration` deletes, with those that go
along: assignments of the instance and their deployments. -/
def removeInstance (s : Store) (instanceId : UUID) : Store :=
  let assigned := fun assignmentId =>
    (s.assignments.lookup assignmentId).any fun a => a.instanceId == instanceId
  { s with
    workspaces := s.workspaces.deleteWhere fun _ w => w.instanceId == instanceId
    members := s.members.deleteWhere fun _ m => m.instanceId == instanceId
    allocations := s.allocations.erase instanceId
    kubernetesProviders := s.kubernetesProviders.erase instanceId
    deployments := s.deployments.deleteWhere fun assignmentId _ => assigned assignmentId
    assignments := s.assignments.deleteWhere fun _ a => a.instanceId == instanceId
    instances := s.instances.erase instanceId }

def removeLocalConfiguration (s : Store) (claim : ExecutionClaim) :
    Except WorkerError (Bool × Store) :=
  match s.ownedExecution claim with
  | none => .ok (false, s)
  | some job =>
      match s.ownedInstance job with
      | none => .ok (false, s)
      | some (id, _) =>
          .ok (true, (s.modifyJob claim.jobId fun job =>
            { job with status := .success, claimedAt := none }).removeInstance id)

def observedInstances (s : Store) : List InstanceStateSnapshot :=
  ((s.instances.select fun _ i => !i.status.inProgress && i.action != .deleting).insertionSort
    (fun a b => a.1 ≤ b.1)).map fun r => {
      id := r.1, slug := r.2.slug, attachedName := r.2.argocdApplicationName, jobId := r.2.jobId
      action := r.2.action, status := r.2.status }

def recordInstanceState (s : Store) (snapshot : InstanceStateSnapshot) (observed : InstanceState) :
    Bool × Store :=
  match s.instances.lookup snapshot.id with
  | none => (false, s)
  | some i =>
      if i.jobId ≠ snapshot.jobId ∨ i.action ≠ snapshot.action ∨ i.status ≠ snapshot.status ∨
          i.status.inProgress = true ∨ i.action = .deleting ∨ i.state = observed then (false, s)
      else (true, { s with
        instances := s.instances.modify snapshot.id fun i => { i with state := observed } })

end Store
end CoderManager
