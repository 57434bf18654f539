import CoderManager.Domains.TemplateService
import CoderManager.Tasks.Templates

/-!
# The parts of a publication

A publication as its parts, one after another: what is recognised, which version
is published, how it is waited for and activated.
-/
namespace CoderManager
open Programs

def ownedOutside : WorkerError :=
  .templateTargetSyncError "Remote template name is already owned outside CoderManager"

def persistedTemplate (url : InstanceUrl) : Option UUID → Worker (Option CoderTemplate)
  | none => pure none
  | some templateId => request (.template url templateId)

def recogniseTemplate (persistedTemplateId persistedVersionId : Option UUID)
    (persisted named : Option CoderTemplate) : Worker (Option CoderTemplate × Bool) :=
  match persisted, named with
  | some persisted, none => pure (some persisted, false)
  | some persisted, some named =>
      if named.id ≠ persisted.id then throw ownedOutside else pure (some persisted, true)
  | none, none => pure (none, false)
  | none, some named =>
      if persistedTemplateId = some named.id ∨
          (persistedVersionId.isSome ∧ named.activeVersionId = persistedVersionId) then
        pure (some named, true)
      else throw ownedOutside

theorem managedRemoteTemplate_eq (url : InstanceUrl) (organizationId : UUID) (name : String)
    (persistedTemplateId persistedVersionId : Option UUID) :
    managedRemoteTemplate url organizationId name persistedTemplateId persistedVersionId = (do
      let persisted ← persistedTemplate url persistedTemplateId
      let named ← request (.templateByName url organizationId name)
      recogniseTemplate persistedTemplateId persistedVersionId persisted named) := by
  cases persistedTemplateId <;> rfl

theorem waitTemplateVersion_succ (url : InstanceUrl) (versionId : UUID) (heartbeat : Worker Unit)
    (fuel : Nat) :
    waitTemplateVersion url versionId heartbeat (fuel + 1) = (do
      let version ← request (.templateVersion url versionId)
      if version.status = .succeeded then pure version
      else if version.status.finished then throw (.coderRequestError "Coder template import failed")
      else do
        if !(← request .beforeDeadline) then
          throw (.coderRequestError "Coder template import timed out")
        heartbeat
        waitTemplateVersion url versionId heartbeat fuel) := by
  refine congrArg (_ >>= ·) (funext fun version => ?_)
  cases version.status <;> rfl

section Parts
variable (claim : ExecutionClaim) (assignmentId organizationId : UUID)
  (snapshot : TemplateSourceSnapshot) (archive : TemplateArchive)
  (preparation : TemplateDeploymentPreparation)

/-- The version of the right name, if the name finds the template. -/
def versionOfName (remoteTemplate : Option CoderTemplate) (foundByName : Bool) :
    Worker (Option CoderTemplateVersion) :=
  if remoteTemplate.isSome && foundByName then
    request (.templateVersionByName preparation.instanceUrl organizationId snapshot.name
      (versionName archive.commit snapshot.systemParameterRevision))
  else pure none

def recoveredVersion : Option CoderTemplateVersion → Worker (Option CoderTemplateVersion)
  | some version => pure (some version)
  | none =>
      match preparation.persistedVersionId with
      | none => pure none
      | some versionId => request (.templateVersionForRecovery preparation.instanceUrl versionId)

def importedVersion (remoteTemplate : Option CoderTemplate) :
    Option CoderTemplateVersion → Worker CoderTemplateVersion
  | some version => pure version
  | none => do
      let fileId ← request (.uploadTemplateArchive preparation.instanceUrl archive.content)
      let version ← request (.createTemplateVersion preparation.instanceUrl organizationId fileId
        (versionName archive.commit snapshot.systemParameterRevision)
        (remoteTemplate.map fun t => t.id) preparation.systemValues)
      transact (.storeTemplateRemoteIds claim assignmentId none none (some version.id))
      return version

theorem publishedVersion_eq (remoteTemplate : Option CoderTemplate) (foundByName : Bool) :
    publishedVersion claim assignmentId organizationId snapshot archive preparation remoteTemplate
      foundByName = (do
        let named ← versionOfName organizationId snapshot archive preparation remoteTemplate
          foundByName
        let recovered ← recoveredVersion preparation named
        importedVersion claim assignmentId organizationId snapshot archive preparation remoteTemplate
          recovered) := by
  unfold publishedVersion versionOfName
  split
  · refine congrArg (_ >>= ·) (funext fun named => ?_)
    cases named with
    | some version => rfl
    | none =>
        simp only [recoveredVersion]
        cases preparation.persistedVersionId <;> rfl
  · simp only [recoveredVersion]
    cases preparation.persistedVersionId <;> rfl

def readyVersion (url : InstanceUrl) (heartbeat : Worker Unit) (fuel : Nat)
    (version : CoderTemplateVersion) : Worker CoderTemplateVersion :=
  if version.status = .succeeded then pure version
  else waitTemplateVersion url version.id heartbeat fuel

def unarchiveVersion (url : InstanceUrl) (version : CoderTemplateVersion) : Worker Unit :=
  if version.archived then request (.unarchiveTemplateVersion url version.id) else pure ()

def activateVersion (version : CoderTemplateVersion) : Option CoderTemplate → Worker Unit
  | none => do
      let created ← request (.createTemplate preparation.instanceUrl organizationId snapshot.name
        snapshot.displayName version.id)
      transact (.storeTemplateRemoteIds claim assignmentId none (some created.id) none)
  | some template =>
      request (.activateTemplateVersion preparation.instanceUrl template.id version.id)

theorem publishTemplate_eq (heartbeat : Worker Unit) (fuel : Nat) :
    publishTemplate claim assignmentId snapshot archive preparation heartbeat fuel = (do
      request (.authenticatePreparedAdmin preparation.instanceUrl preparation.password)
      let organizationId ← request (.defaultOrganizationId preparation.instanceUrl)
      let found ← managedRemoteTemplate preparation.instanceUrl organizationId snapshot.name
        preparation.persistedTemplateId preparation.persistedVersionId
      transact (.storeTemplateRemoteIds claim assignmentId (some organizationId)
        (found.1.map fun t => t.id) none)
      let version ← publishedVersion claim assignmentId organizationId snapshot archive preparation
        found.1 found.2
      let version ← readyVersion preparation.instanceUrl heartbeat fuel version
      unarchiveVersion preparation.instanceUrl version
      activateVersion claim assignmentId organizationId snapshot preparation version found.1) := by
  unfold publishTemplate
  refine congrArg (_ >>= ·) (funext fun _ => ?_)
  refine congrArg (_ >>= ·) (funext fun organizationId => ?_)
  refine congrArg (_ >>= ·) (funext fun found => ?_)
  obtain ⟨remoteTemplate, foundByName⟩ := found
  refine congrArg (_ >>= ·) (funext fun _ => ?_)
  refine congrArg (_ >>= ·) (funext fun version => ?_)
  unfold readyVersion unarchiveVersion
  by_cases hready : version.status = .succeeded
  · simp only [hready, if_true]
    refine congrArg (_ >>= ·) (funext fun version => ?_)
    cases remoteTemplate <;> cases version.archived <;> rfl
  · simp only [hready, if_false]
    refine congrArg (_ >>= ·) (funext fun version => ?_)
    cases remoteTemplate <;> cases version.archived <;> rfl

end Parts

end CoderManager
