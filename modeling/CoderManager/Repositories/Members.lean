import CoderManager.Repositories.Instances

/-!
# Member requests

A member change requests one instance reconciliation, unless a reconciliation
that has not left its first step will pick the change up. `MemberRepository.create` is
`createMember` here, and so on, as in the other repositories.
-/
namespace CoderManager
namespace Store

def lockAvailableMemberInstance (s : Store) (instanceId : UUID) :
    Except RequestError Instance := do
  let i ← present (s.instances.lookup instanceId) .memberInstanceNotFound
  require (!s.hasActiveTemplateAssignment instanceId) .memberInstanceBusy
  let updateInProgress := i.action == .updating && i.step == some .instanceUpdateStep01 &&
    i.status.inProgress
  require (updateInProgress || i.status == .success) .memberInstanceBusy
  return i

/-- `_request_instance_update` followed, when it asks for one, by
`_stage_instance_update_job`. -/
def requestInstanceUpdate (s : Store) (instanceId : UUID) (i : Instance) : Store :=
  if i.action == .updating && i.status.inProgress then s
  else (s.stageJob .instanceUpdate .updating .instance instanceId .instanceUpdateStep01).2

def lockMember (s : Store) (instanceId memberId : UUID) : Except RequestError Member := do
  let m ← present (s.members.lookup memberId) .memberNotFound
  require (m.instanceId == instanceId) .memberNotFound
  return m

def createMember (s : Store) (instanceId : UUID) (username : String) (role : MemberRole) :
    Except RequestError (UUID × Store) := do
  let i ← s.lockAvailableMemberInstance instanceId
  require (!s.members.any fun _ m => m.instanceId == instanceId && m.username == username)
    .memberAlreadyExists
  let (memberId, s) := s.drawId
  let members := s.members.insert memberId
    { instanceId, username, role, action := .creating, status := .pending }
  let s := { s with members }
  return (memberId, s.requestInstanceUpdate instanceId i)

def updateMemberRole (s : Store) (instanceId memberId : UUID) (role : MemberRole) :
    Except RequestError ((UUID × Bool) × Store) := do
  let i ← s.lockAvailableMemberInstance instanceId
  let m ← s.lockMember instanceId memberId
  require (m.status == .success) .memberActionConflict
  if m.role = role then return ((memberId, false), s)
  let members := s.members.modify memberId
    fun m => { m with role, action := .updating, status := .pending }
  let s := { s with members }
  return ((memberId, true), s.requestInstanceUpdate instanceId i)

def requestMemberDeletion (s : Store) (instanceId memberId : UUID)
    (protectedUsernames : List String) : Except RequestError (UUID × Store) := do
  let i ← s.lockAvailableMemberInstance instanceId
  let m ← s.lockMember instanceId memberId
  require (!protectedUsernames.contains m.username) .memberProtectedAdministrator
  require (m.status == .success) .memberActionConflict
  require (!s.workspaces.any fun _ w => w.memberId == memberId) .memberHasWorkspaces
  let members := s.members.modify memberId
    fun m => { m with action := .deleting, status := .pending }
  let s := { s with members }
  return (memberId, s.requestInstanceUpdate instanceId i)

end Store
end CoderManager
