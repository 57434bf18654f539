import CoderManager.System

/-!
# The workers' discipline

When a worker may issue an operation, given its own history. A worker's claim
is its first operation; every other operation is tied to that claim and to what
the worker was answered before.
-/
namespace CoderManager
open Programs

abbrev WorkerHistory := List WorkerEvent

def claimEvent (c : ExecutionClaim) : WorkerEvent :=
  ⟨.transaction (.claimExecution c.jobId c.taskName), .ok (some c)⟩

/-- The worker was given this claim by its first operation. -/
def Holds (h : WorkerHistory) (c : ExecutionClaim) : Prop := [claimEvent c] <:+ h

def Read (h : WorkerHistory) {β : Type} (q : Query β) (a : β) : Prop :=
  (⟨.query q, .ok a⟩ : WorkerEvent) ∈ h

def Wrote (h : WorkerHistory) {β : Type} (t : Transaction β) (a : β) : Prop :=
  (⟨.transaction t, .ok a⟩ : WorkerEvent) ∈ h

def Called (h : WorkerHistory) {β : Type} (c : Call β) (a : β) : Prop :=
  (⟨.call c, .ok a⟩ : WorkerEvent) ∈ h

def Op.isQuery : {β : Type} → Op β → Bool
  | _, .query _ => true
  | _, _ => false

def Op.isCall : {β : Type} → Op β → Bool
  | _, .call _ => true
  | _, _ => false

theorem query_ne_transaction {β γ : Type} {q : Query β} {t : Transaction γ}
    {a : Except WorkerError β} {b : Except WorkerError γ} :
    (⟨.query q, a⟩ : WorkerEvent) ≠ ⟨.transaction t, b⟩ := fun h =>
  Bool.noConfusion (congrArg (fun e : WorkerEvent => e.op.isQuery) h)

def Returned {α : Type} (h : WorkerHistory) (p : Worker α) : Prop :=
  ∃ after run before a, h = after ++ run.reverse ++ before ∧ Completes p run a

/-- A reconciliation of the instance was completed with these members and this
name. -/
def Reconciled (h : WorkerHistory) (instanceId : UUID) (members : List (String × MemberRole))
    (name : String) : Prop :=
  ∃ slug attachedName helmValues, Called h
    (.reconcileInstanceApplication instanceId slug attachedName members helmValues)
    ⟨.completed, name⟩

/-- The members a step may reconcile an instance with: those it claimed, those
it read when it restarts the instance, or any when it creates or restores the
Application. -/
inductive Reconciles (h : WorkerHistory) (c : ExecutionClaim) (instanceId : UUID) :
    List (String × MemberRole) → Prop
  | update {claimed : ClaimedMembers} (step : c.step = .instanceUpdateStep01)
      (own : Wrote h (.claimMembers c) claimed) : Reconciles h c instanceId claimed.members
  | start {snapshot : InstanceSnapshot} {missing : WorkerError}
      (step : c.step = .instanceStartStep01)
      (own : Read h (.instanceSnapshot c.resourceId missing) snapshot) :
      Reconciles h c instanceId snapshot.members
  | restore {members : List (String × MemberRole)}
      (step : c.step = .instanceCreateStep02 ∨ c.step = .instanceDeleteStep01) :
      Reconciles h c instanceId members

def isReconciliation : {β : Type} → Op β → Bool
  | _, .call (.reconcileInstanceApplication _ _ _ _ _) => true
  | _, _ => false

/-- The step an attempt may advance to, and what it has done before. -/
inductive Advances (h : WorkerHistory) (c : ExecutionClaim) : StepName → Mutation → Prop
  | createSchema (step : c.step = .instanceCreateStep01) :
      Advances h c .instanceCreateStep02 .none
  | createInstance {name : String} {missing : WorkerError} (step : c.step = .instanceCreateStep02)
      (named : name ≠ "") : Advances h c .instanceCreateStep03 (.storeApplicationName name missing)
  | updateInstance {claimed : ClaimedMembers} {instanceId : UUID} {name : String}
      {missing : WorkerError} (step : c.step = .instanceUpdateStep01) (named : name ≠ "")
      (resource : c.resourceId = some instanceId) (own : Wrote h (.claimMembers c) claimed)
      (reconciled : Reconciled h instanceId claimed.members name) :
      Advances h c .instanceUpdateStep02 (.storeApplicationName name missing)
  | startInstance {snapshot : InstanceSnapshot} {instanceId : UUID} {name : String}
      {missing missing' : WorkerError} (step : c.step = .instanceStartStep01) (named : name ≠ "")
      (resource : c.resourceId = some instanceId)
      (own : Read h (.instanceSnapshot c.resourceId missing') snapshot)
      (reconciled : Reconciled h instanceId snapshot.members name) :
      Advances h c .instanceUpdateStep02 (.storeApplicationName name missing)
  | stopWorkspaces (step : c.step = .instanceStopStep01) : Advances h c .instanceStopStep02 .none
  | removeWorkspaces {instanceId : UUID} {password : String} {heartbeat : Worker Unit} {fuel : Nat}
      (step : c.step = .instanceDeleteStep01) (resource : c.resourceId = some instanceId)
      (emptied : Returned h (Coder.deleteAllWorkspaces instanceId password heartbeat fuel)) :
      Advances h c .instanceDeleteStep02 .none
  | removeInstance {instanceId : UUID} {slug : String} {attachedName : Option String}
      (step : c.step = .instanceDeleteStep02) (resource : c.resourceId = some instanceId)
      (removed : Called h (.deleteInstanceApplication instanceId slug attachedName) .completed) :
      Advances h c .instanceDeleteStep03 .markStopped
  | removeSchema {instanceId : UUID} (step : c.step = .instanceDeleteStep03)
      (resource : c.resourceId = some instanceId)
      (dropped : Read h (.managedDatabaseTarget instanceId) none ∨
        ∃ target name, Read h (.managedDatabaseTarget instanceId) (some (target, name)) ∧
          Called h (.dropSchema target) ()) :
      Advances h c .instanceDeleteStep04 .none

/-- How an attempt may conclude its job. -/
inductive Concludes (c : ExecutionClaim) : Mutation → Bool → Prop
  | bootstrapAdmin (step : c.step = .instanceCreateStep03) : Concludes c .promotePassword false
  | stopInstance (step : c.step = .instanceStopStep02) : Concludes c .markStopped false
  | createTemplate (step : c.step = .templateAssignmentCreateStep01) :
      Concludes c .markCreated false
  | sync (step : c.step = .templateSyncStep01 ∨ c.step = .databaseSyncStep01) :
      Concludes c .none false
  | convergeWorkspace {workspaceId buildId : Option UUID} {applyParameters : Bool}
      (step : c.step = .workspaceCreateStep01 ∨ c.step = .workspaceUpdateStep01) :
      Concludes c (.convergeWorkspace workspaceId buildId applyParameters) false
  | deleteWorkspace {workspaceId buildId : Option UUID} {applyParameters : Bool}
      (step : c.step = .workspaceDeleteStep01) :
      Concludes c (.convergeWorkspace workspaceId buildId applyParameters) true

def ClaimsMembers (h : WorkerHistory) (c : ExecutionClaim) (memberIds : List UUID) : Prop :=
  (∃ claimed, Wrote h (.claimMembers c) claimed ∧ claimed.memberIds = memberIds) ∨
    ∃ claimed, Wrote h (.claimCleanup c) claimed ∧ claimed.memberIds = memberIds

/-- The callbacks a released attempt may run: it lets go of the members it claimed. -/
inductive Releases (h : WorkerHistory) (c : ExecutionClaim) : Mutation → Prop
  | none : Releases h c .none
  | failMembers {memberIds : List UUID} (own : ClaimsMembers h c memberIds) :
      Releases h c (.failMembers memberIds)
  | deferMembers {memberIds : List UUID} (own : ClaimsMembers h c memberIds) :
      Releases h c (.deferMembers memberIds)

def ObservesName (h : WorkerHistory) (instanceId : UUID) (slug : String) (attachedName : Option String) :
    Prop :=
  ∃ snapshots, Read h .observedInstances snapshots ∧ ∃ snapshot ∈ snapshots,
    snapshot.id = instanceId ∧ snapshot.slug = slug ∧ snapshot.attachedName = attachedName

namespace Discipline

def transaction (h : WorkerHistory) : {β : Type} → Transaction β → Prop
  | _, .claimExecution _ _ => h = []
  | _, .heartbeatExecution c => Holds h c
  | _, .advanceExecution c task step mutate =>
      Holds h c ∧ task = step.task ∧ Advances h c step mutate
  | _, .completeExecution c mutate delete => Holds h c ∧ Concludes c mutate delete
  | _, .deferExecution c mutate => Holds h c ∧ Releases h c mutate
  | _, .failExecution c mutate => Holds h c ∧ Releases h c mutate
  | _, .prepareExecutionRetry _ _ => True
  | _, .prepareBootstrap c => Holds h c ∧ c.step = .instanceCreateStep03
  | _, .claimMembers c => h = [claimEvent c] ∧ c.step = .instanceUpdateStep01
  | _, .claimCleanup c => Holds h c ∧ c.step = .instanceUpdateStep02
  | _, .finalizeUpdate c memberIds name => Holds h c ∧ c.step = .instanceUpdateStep02 ∧
      ∃ claimed, Wrote h (.claimCleanup c) claimed ∧ claimed.memberIds = memberIds ∧
        claimed.applicationName = name
  | _, .storeStartedApplication c _ => Holds h c ∧ c.step = .instanceDeleteStep01
  | _, .removeLocalConfiguration c => Holds h c ∧ c.step = .instanceDeleteStep04
  | _, .recordInstanceState _ _ => True
  | _, .prepareDeployment c _ _ _ _ => Holds h c
  | _, .storeTemplateRemoteIds c _ _ _ _ => Holds h c
  | _, .finishDeployment c _ _ _ _ => Holds h c
  | _, .removeLocalAssignment c snapshot => Holds h c ∧ c.step = .templateAssignmentDeleteStep01 ∧
      ∃ assignmentId, c.resourceId = some assignmentId ∧
        Read h (.removalSnapshot assignmentId) snapshot
  | _, .storeWorkspaceRemoteIds c _ _ => Holds h c

def call (h : WorkerHistory) : {β : Type} → Call β → Prop
  | _, .createSchema target => ∃ c instanceId name, Holds h c ∧ c.step = .instanceCreateStep01 ∧
      c.resourceId = some instanceId ∧
      Read h (.managedDatabaseTarget instanceId) (some (target, name))
  | _, .dropSchema target => ∃ c instanceId name, Holds h c ∧ c.step = .instanceDeleteStep03 ∧
      c.resourceId = some instanceId ∧
      Read h (.managedDatabaseTarget instanceId) (some (target, name))
  | _, .reconcileInstanceApplication instanceId _ _ members _ =>
      (∀ e ∈ h, isReconciliation e.op = false) ∧ ∃ c, Holds h c ∧
        c.resourceId = some instanceId ∧ Reconciles h c instanceId members
  | _, .deleteInstanceApplication instanceId _ _ => ∃ c, Holds h c ∧
      c.resourceId = some instanceId ∧
      (c.step = .instanceStopStep02 ∨ c.step = .instanceDeleteStep02)
  | _, .instanceApplicationExists instanceId slug attachedName =>
      (∃ c, Holds h c ∧ c.resourceId = some instanceId ∧
        (c.step = .instanceStopStep01 ∨ c.step = .instanceDeleteStep01)) ∨
      ObservesName h instanceId slug attachedName
  | _, _ => True

def guard (h : WorkerHistory) : {β : Type} → Op β → Prop
  | _, .query _ => True
  | _, .transaction t => transaction h t
  | _, .call c => call h c

/-- What the workers rely on in the answers they get. -/
def answers : {β : Type} → Op β → Except WorkerError β → Prop
  | _, .transaction (.claimExecution jobId taskName), .ok (some c) =>
      c.jobId = jobId ∧ c.taskName = taskName ∧ c.step.task = taskName
  | _, .transaction (.prepareBootstrap c), .ok (some preparation) =>
      c.step = .instanceCreateStep03 → preparation.isUpdate = false
  | _, .query (.instanceSnapshot resourceId _), .ok snapshot =>
      resourceId = some snapshot.instanceId
  | _, .query (.storedAdminPassword instanceId), .ok (some credentials) =>
      credentials.1 = instanceId
  | _, .call (.reconcileInstanceApplication _ _ _ _ _), .ok result => result.applicationName ≠ ""
  | _, _, _ => True

end Discipline

def discipline : Protocol Op WorkerError where
  answers := Discipline.answers
  guard := fun h o => Discipline.guard h o

end CoderManager
