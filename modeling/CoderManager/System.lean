import CoderManager.Lib.Pool
import CoderManager.Repositories.Assignments
import CoderManager.Repositories.Members
import CoderManager.Repositories.Templates
import CoderManager.Repositories.Workspaces
import CoderManager.Tasks.Periodic

/-!
# The manager as a running system

API requests, task deliveries, recovery scans and observations over one
database, interleaved one transaction or remote request at a time. A delivery
may name any job and any task at any moment, so late, duplicated and lost
deliveries need no rule of their own.
-/
namespace CoderManager
open Programs

/-- The requests wired to API routes. -/
inductive Request where
  | createInstance (application : String) (slug : InstanceSlug)
  | requestInstanceDeletion (instanceId : UUID)
  | requestSync (instanceId : UUID)
  | requestStart (instanceId : UUID)
  | requestStop (instanceId : UUID)
  | createKubernetesProvider (instanceId : UUID) (kubeconfig : String)
  | createDatabase (payload : DatabaseFields) (password : String)
  | updateDatabase (databaseId : UUID) (payload : DatabaseFields) (password : Option String)
  | deleteDatabase (databaseId : UUID)
  | requestDatabaseSync
  | createMember (instanceId : UUID) (username : String) (role : MemberRole)
  | updateMemberRole (instanceId memberId : UUID) (role : MemberRole)
  | requestMemberDeletion (instanceId memberId : UUID) (protectedUsernames : List String)
  | createTemplate (name : String) (payload : TemplateFields)
  | updateTemplate (templateId : UUID) (payload : TemplateFields)
  | deleteTemplate (templateId : UUID)
  | requestTemplateSync (templateId : UUID)
  | createImage (templateId : UUID) (registry name version : String)
  | deleteImage (templateId imageId : UUID)
  | createParameter (templateId : UUID) (name displayName description : String)
      (value : ParameterValue)
  | updateParameter (templateId parameterId : UUID) (displayName description : String)
      (update : ParameterUpdate)
  | deleteParameter (templateId parameterId : UUID)
  | putAssignment (instanceId templateId : UUID)
  | requestAssignmentDeletion (instanceId templateId : UUID)
  | createWorkspace (instanceId templateId memberId : UUID) (payload : WorkspaceFields)
  | updateWorkspace (workspaceId : UUID) (payload : WorkspaceFields)
  | requestWorkspaceDeletion (workspaceId : UUID)

def Request.handle (s : Store) : Request → Except RequestError Store
  | .createInstance application slug => return (← s.createInstance application slug.text).2
  | .requestInstanceDeletion id => return (← s.requestInstanceDeletion id).2
  | .requestSync id => return (← s.requestSync id).2
  | .requestStart id => return (← s.requestStart id).2
  | .requestStop id => return (← s.requestStop id).2
  | .createKubernetesProvider id kubeconfig =>
      return (← s.createKubernetesProvider id kubeconfig).2
  | .createDatabase payload password => return (← s.createDatabase payload password).2
  | .updateDatabase id payload password => return (← s.updateDatabase id payload password).2
  | .deleteDatabase id => return (← s.deleteDatabase id).2
  | .requestDatabaseSync => return (← s.requestDatabaseSync).2
  | .createMember id username role => return (← s.createMember id username role).2
  | .updateMemberRole id member role => return (← s.updateMemberRole id member role).2
  | .requestMemberDeletion id member protectedUsernames =>
      return (← s.requestMemberDeletion id member protectedUsernames).2
  | .createTemplate name payload => return (← s.createTemplate name payload).2
  | .updateTemplate id payload => return (← s.updateTemplate id payload).2
  | .deleteTemplate id => return (← s.deleteTemplate id).2
  | .requestTemplateSync id => return (← s.requestTemplateSync id).2
  | .createImage id registry name version => return (← s.createImage id registry name version).2
  | .deleteImage id image => return (← s.deleteImage id image).2
  | .createParameter id name displayName description value =>
      return (← s.createParameter id name displayName description value).2
  | .updateParameter id parameter displayName description update =>
      return (← s.updateParameter id parameter displayName description update).2
  | .deleteParameter id parameter => return (← s.deleteParameter id parameter).2
  | .putAssignment id template => return (← s.putAssignment id template).2
  | .requestAssignmentDeletion id template => return (← s.requestAssignmentDeletion id template).2
  | .createWorkspace id template member payload =>
      return (← s.createWorkspace id template member payload).2
  | .updateWorkspace id payload => return (← s.updateWorkspace id payload).2
  | .requestWorkspaceDeletion id => return (← s.requestWorkspaceDeletion id).2

/-- The database. What other systems do shows only in what they answer. -/
structure World where
  store : Store

/-- What changes outside the workers. -/
inductive Change where
  | request (r : Request)
  | tick (elapsed : Nat)

namespace World

def empty : World := ⟨.empty⟩

/-- A rejected request leaves the world as it was. -/
def react (w : World) : Change → World
  | .request r =>
      match r.handle w.store with
      | .ok s => ⟨s⟩
      | .error _ => w
  | .tick elapsed => ⟨{ w.store with now := w.store.now + elapsed }⟩

/-- One atomic operation. A failing transaction rolls back. -/
def perform (w : World) (reply : Reply) : {β : Type} → Op β → Except WorkerError β × World
  | _, .query q =>
      match reply with
      | .fail _ => (.error .databaseError, w)
      | _ => (w.store.answer q, w)
  | _, .transaction t =>
      match reply with
      | .fail _ => (.error .databaseError, w)
      | _ =>
          let token := match reply with
            | .token value => value
            | _ => ""
          match w.store.transact token t with
          | .ok (a, s) => (.ok a, ⟨s⟩)
          | .error e => (.error e, w)
  | _, .call c => (c.answer reply, w)

end World

/-- The bodies a worker process may start. -/
inductive Body where
  | deliver (taskName : TaskName) (jobId : UUID) (protectedUsernames : List String) (fuel : Nat)
  | retryJobExecutions (jobStaleAfterSeconds : Nat)
  | checkInstanceStates

namespace Body

def operation (protectedUsernames : List String) (fuel : Nat) :
    StepName → ExecutionClaim → Worker TaskStatus
  | .instanceCreateStep01 => Tasks.createSchema
  | .instanceCreateStep02 => Tasks.createInstance
  | .instanceCreateStep03 => Tasks.bootstrapAdmin
  | .instanceUpdateStep01 => Tasks.updateInstance
  | .instanceUpdateStep02 => Tasks.cleanupUsers protectedUsernames
  | .instanceStartStep01 => Tasks.startInstance
  | .instanceStopStep01 => Tasks.stopWorkspaces fuel
  | .instanceStopStep02 => Tasks.stopInstance
  | .instanceDeleteStep01 => Tasks.removeWorkspaces fuel
  | .instanceDeleteStep02 => Tasks.removeInstance
  | .instanceDeleteStep03 => Tasks.removeSchema
  | .instanceDeleteStep04 => Tasks.removeLocalConfiguration
  | .workspaceCreateStep01 => Tasks.createWorkspace fuel
  | .workspaceUpdateStep01 => Tasks.updateWorkspace fuel
  | .workspaceDeleteStep01 => Tasks.deleteWorkspace fuel
  | .databaseSyncStep01 => Tasks.syncDatabase
  | .templateSyncStep01 => Tasks.syncTemplate fuel
  | .templateAssignmentCreateStep01 => Tasks.createTemplate fuel
  | .templateAssignmentDeleteStep01 => Tasks.deleteTemplate fuel

def program : Body → Worker Unit
  | .deliver (.registered step) jobId protectedUsernames fuel => do
      let _ ← runClaimedStep jobId step.task (operation protectedUsernames fuel step)
  | .deliver (.unknown _) _ _ _ => pure ()
  | .retryJobExecutions jobStaleAfterSeconds => do
      let _ ← Tasks.retryJobExecutions jobStaleAfterSeconds
  | .checkInstanceStates => do
      let _ ← Tasks.checkInstanceStates

end Body

/-- The manager as a pool of workers over the world. -/
def manager : Machine Op WorkerError World Reply Change Body where
  perform := fun o reply w => w.perform reply o
  react := fun e w => w.react e
  body := Body.program

abbrev Manager := Programs.System Op WorkerError World Change

abbrev Step := Programs.Label Reply Change Body

/-- The state after a sequence of steps, from an empty database. -/
def run (steps : List Step) : Manager := manager.run .empty steps

end CoderManager
