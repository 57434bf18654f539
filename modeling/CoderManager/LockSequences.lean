import CoderManager.Sessions
import CoderManager.System

/-!
# The row locks of each transaction

For every request and every transaction of a worker, the rows it locks on given
contents of the database, in the order of its statements: `FOR UPDATE` selects
first, then updates and deletes with the rows that go along. A sequence stops
where a check raises. `scan` is the order in which a statement without
`ORDER BY` meets its rows. Databases, images and parameters are left out.
-/
namespace CoderManager
open Tables

/-- Lock a row that exists and go on with what it holds. -/
def lockThen {α : Type} (kind : RowKind) (id : UUID) (row : Option α)
    (next : α → List LockedRow) : List LockedRow :=
  match row with
  | none => []
  | some a => ⟨kind, id⟩ :: next a

def passing {ε α : Type} (check : Except ε α) (next : List LockedRow) : List LockedRow :=
  match check with
  | .ok _ => next
  | .error _ => []

/-- The rows a statement without `ORDER BY` locks. -/
def scanned {α : Type} (kind : RowKind) (scan : UUID → Nat) (rows : List (UUID × α)) :
    List LockedRow :=
  ((rows.map Prod.fst).insertionSort fun a b => scan a ≤ scan b).map fun id => ⟨kind, id⟩

namespace Store
variable (s : Store)

def lockInstance (id : UUID) (next : Instance → List LockedRow) : List LockedRow :=
  lockThen .instance id (s.instances.lookup id) next

def lockTemplate (id : UUID) (next : Template → List LockedRow) : List LockedRow :=
  lockThen .template id (s.templates.lookup id) next

def currentJobRow (t : Template) : List LockedRow :=
  match t.jobId with
  | none => []
  | some jobId => lockThen .job jobId (s.jobs.lookup jobId) fun _ => []

def lockWorkspaceThenParents (workspaceId : UUID) : List LockedRow :=
  lockThen .workspace workspaceId (s.workspaces.lookup workspaceId) fun w =>
    if w.status.inProgress then [] else
      s.lockInstance w.instanceId fun i =>
        if i.status ≠ .success then [] else s.lockTemplate w.templateId fun _ => []

def requestLocks (scan : UUID → Nat) : Request → List LockedRow
  | .createInstance _ _ => []
  | .requestInstanceDeletion id => s.lockInstance id fun _ => []
  | .requestSync id => s.lockInstance id fun _ => passing (s.requireIdleInstance id)
      (scanned .member scan (s.members.select fun _ m => m.instanceId == id && m.status == .error))
  | .requestStart id => s.lockInstance id fun _ => []
  | .requestStop id => s.lockInstance id fun _ => []
  | .createKubernetesProvider id _ => s.lockInstance id fun _ => []
  | .createDatabase _ _ => []
  | .updateDatabase _ _ _ => []
  | .deleteDatabase _ => []
  | .requestDatabaseSync => []
  | .createMember id _ _ => s.lockInstance id fun _ => []
  | .updateMemberRole id memberId _ => s.lockInstance id fun _ =>
      passing (s.lockAvailableMemberInstance id)
        (passing (s.lockMember id memberId) [⟨.member, memberId⟩])
  | .requestMemberDeletion id memberId _ => s.lockInstance id fun _ =>
      passing (s.lockAvailableMemberInstance id)
        (passing (s.lockMember id memberId) [⟨.member, memberId⟩])
  | .createTemplate _ _ => []
  | .updateTemplate id payload => s.lockTemplate id fun t =>
      match s.updateTemplate id payload with
      | .ok (_, s') => if (s'.templates.lookup id).any fun t => t.jobId.isNone then
          s.currentJobRow t else []
      | .error _ => []
  | .deleteTemplate id => s.lockTemplate id fun t =>
      if t.status.isActive || s.assignments.any fun _ a => a.templateId == id then []
      else s.currentJobRow t
  | .requestTemplateSync id => s.lockTemplate id fun t =>
      passing (s.requestTemplateSync id) (s.currentJobRow t)
  | .createImage id _ _ _ => s.lockTemplate id fun _ => []
  | .deleteImage _ _ => []
  | .createParameter id _ _ _ _ => s.lockTemplate id fun _ => []
  | .updateParameter id _ _ _ _ => s.lockTemplate id fun _ => []
  | .deleteParameter id _ => s.lockTemplate id fun _ => []
  | .putAssignment id templateId => s.lockInstance id fun i => s.lockTemplate templateId fun t =>
      passing (requireMutationAvailable i t)
        (match s.findAssignment id templateId with
        | none => []
        | some (assignmentId, _) => [⟨.templateAssignment, assignmentId⟩])
  | .requestAssignmentDeletion id templateId => s.lockInstance id fun _ =>
      s.lockTemplate templateId fun _ =>
        match s.findAssignment id templateId with
        | none => []
        | some (assignmentId, _) => [⟨.templateAssignment, assignmentId⟩]
  | .createWorkspace id templateId memberId _ => s.lockInstance id fun i =>
      if i.status ≠ .success then [] else s.lockTemplate templateId fun _ =>
        passing (s.requireRemoteTemplate templateId id)
          (lockThen .member memberId (s.members.lookup memberId) fun _ => [])
  | .updateWorkspace id _ => s.lockWorkspaceThenParents id
  | .requestWorkspaceDeletion id => s.lockWorkspaceThenParents id

def resourceRow (job : JobExecution) : List LockedRow :=
  match job.resourceType, job.resourceId with
  | some type, some id => lockThen type.rowKind id (s.lifecycle type id) fun _ => []
  | _, _ => []

def ownedLocks (claim : ExecutionClaim) (next : JobExecution → List LockedRow) : List LockedRow :=
  lockThen .job claim.jobId (s.jobs.lookup claim.jobId) fun job =>
    if job.taskName = claim.taskName ∧ job.step = claim.step ∧ job.attempt = claim.attempt ∧
        job.status = .running then
      s.resourceRow job ++ (match s.ownedExecution claim with
        | none => []
        | some job => next job)
    else []

/-- The member rows a `mutate` callback writes, in the order of the flush. -/
def mutationLocks : Mutation → List LockedRow
  | .failMembers memberIds => written memberIds
  | .deferMembers memberIds => written memberIds
  | _ => []
where
  written (memberIds : List UUID) : List LockedRow :=
    (((s.members.select fun id m => memberIds.contains id && m.status == .running).map
      Prod.fst).insertionSort (· ≤ ·)).map fun id => ⟨.member, id⟩

/-- `_lock_owned_template_target`. -/
def targetLocks (claim : ExecutionClaim) (assignmentId : UUID) (expectedTemplateId : Option UUID) :
    List LockedRow :=
  lockThen .job claim.jobId (s.jobs.lookup claim.jobId) fun job =>
    if !jobMatchesClaim job claim then [] else
      match s.assignments.lookup assignmentId with
      | none => []
      | some a =>
          if expectedTemplateId.any fun t => t != a.templateId then [] else
            lockThen .instance a.instanceId (s.instances.lookup a.instanceId) (fun _ => []) ++
            lockThen .template a.templateId (s.templates.lookup a.templateId) (fun _ => []) ++
            [⟨.templateAssignment, assignmentId⟩] ++
            passing (s.lockOwnedTemplateTarget claim assignmentId expectedTemplateId)
              (lockThen .templateDeployment assignmentId (s.deployments.lookup assignmentId)
                fun _ => [])

def memberLocks (instanceId : UUID) : List LockedRow :=
  (s.storedMembers instanceId).map fun m => ⟨.member, m.1⟩

def finalizeLocks (scan : UUID → Nat) (instanceId : UUID) (memberIds : List UUID) :
    List LockedRow :=
  let finished := fun (id : UUID) (m : Member) =>
    memberIds.contains id && m.instanceId == instanceId && m.status == .running
  let removed := fun memberId =>
    (s.members.lookup memberId).any fun m => finished memberId m && m.action == .deleting
  scanned .member scan (s.members.select finished) ++
    scanned .workspace scan (s.workspaces.select fun _ w => removed w.memberId)

def removalLocks (scan : UUID → Nat) (instanceId : UUID) : List LockedRow :=
  let assignments := s.assignments.select fun _ a => a.instanceId == instanceId
  scanned .workspace scan (s.workspaces.select fun _ w => w.instanceId == instanceId) ++
    scanned .member scan (s.members.select fun _ m => m.instanceId == instanceId) ++
    scanned .templateAssignment scan assignments ++
    scanned .templateDeployment scan
      (assignments.filter fun a => (s.deployments.lookup a.1).isSome)

def transactionLocks (scan : UUID → Nat) : {β : Type} → Transaction β → List LockedRow
  | _, .claimExecution jobId taskName => lockThen .job jobId (s.jobs.lookup jobId) fun job =>
      if job.taskName ≠ taskName ∨ (job.status ≠ .pending ∧ job.status ≠ .error) then []
      else s.resourceRow job
  | _, .heartbeatExecution claim => s.ownedLocks claim fun _ => []
  | _, .advanceExecution claim _ _ mutate => s.ownedLocks claim fun _ => s.mutationLocks mutate
  | _, .completeExecution claim mutate _ => s.ownedLocks claim fun _ => s.mutationLocks mutate
  | _, .deferExecution claim mutate => s.ownedLocks claim fun _ => s.mutationLocks mutate
  | _, .failExecution claim mutate => s.ownedLocks claim fun _ => s.mutationLocks mutate
  | _, .prepareExecutionRetry jobId _ => lockThen .job jobId (s.jobs.lookup jobId) fun job =>
      if job.status = .success then [] else s.resourceRow job
  | _, .prepareBootstrap claim => s.ownedLocks claim fun _ => []
  | _, .claimMembers claim =>
      match s.claimedInstance claim.resourceId with
      | none => []
      | some (id, _) => s.memberLocks id
  | _, .claimCleanup claim =>
      match s.claimedInstance claim.resourceId with
      | none => []
      | some (id, i) => if i.argocdApplicationName.getD "" = "" then [] else s.memberLocks id
  | _, .finalizeUpdate claim memberIds _ => s.ownedLocks claim fun job =>
      match s.ownedInstance job with
      | none => []
      | some (id, _) => s.finalizeLocks scan id memberIds
  | _, .storeStartedApplication claim _ => s.ownedLocks claim fun _ => []
  | _, .removeLocalConfiguration claim => s.ownedLocks claim fun job =>
      match s.ownedInstance job with
      | none => []
      | some (id, _) => s.removalLocks scan id
  | _, .recordInstanceState snapshot _ => s.lockInstance snapshot.id fun _ => []
  | _, .prepareDeployment claim assignmentId templateId _ _ =>
      s.targetLocks claim assignmentId (some templateId)
  | _, .storeTemplateRemoteIds claim assignmentId _ _ _ => s.targetLocks claim assignmentId none
  | _, .finishDeployment claim assignmentId _ _ _ => s.targetLocks claim assignmentId none
  | _, .removeLocalAssignment claim snapshot => s.ownedLocks claim fun job =>
      match job.resourceType, job.resourceId with
      | some .templateAssignment, some id =>
          scanned .workspace scan (s.workspaces.select fun _ w =>
            w.templateId == snapshot.templateId && w.instanceId == snapshot.instanceId) ++
          lockThen .templateDeployment id (s.deployments.lookup id) fun _ => []
      | _, _ => []
  | _, .storeWorkspaceRemoteIds claim _ _ => s.ownedLocks claim fun _ => []

end Store

/-- What locks rows: a request of the API or a transaction of a worker. -/
inductive Work : Type 1 where
  | request (r : Request)
  | transaction {β : Type} (t : Transaction β)

def Work.locks (s : Store) (scan : UUID → Nat) : Work → List LockedRow
  | .request r => s.requestLocks scan r
  | .transaction t => s.transactionLocks scan t

/-- One step of the lock table: work that begins on some contents, takes its
next row, or ends. -/
inductive LockStep : Type 1 where
  | begin (n : Nat) (s : Store) (scan : UUID → Nat) (work : Work)
  | take (n : Nat)
  | leave (n : Nat)

def LockStep.wardStep : LockStep → Locks.WardStep LockedRow
  | .begin n s scan work => .begin n (work.locks s scan)
  | .take n => .take n
  | .leave n => .leave n

def lockRun (steps : List LockStep) : Locks.Ward LockedRow :=
  Locks.Ward.run (steps.map LockStep.wardStep)

end CoderManager
