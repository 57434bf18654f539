import CoderManager.Domains.Remote
import CoderManager.Lib.Hoare

/-!
# The workspaces of a Coder deployment

Coder keeps workspaces and runs their builds. It is not part of this repository: a
`WorkspaceService` says what a deployment holds and how it answers a request that
arrives, and `Lawful` what an attempt at a workspace relies on.
-/
namespace CoderManager
open Programs

structure RemoteBuild where
  id : UUID
  transition : Transition
  status : BuildStatus
  parameters : List (String × String)
  deriving DecidableEq, Repr

/-- A workspace with its latest build. A foreign one was not created by the manager. -/
structure RemoteWorkspace where
  owner : String
  name : String
  templateId : UUID
  latest : RemoteBuild
  foreign : Bool
  deriving DecidableEq, Repr

def RemoteWorkspace.view (id : UUID) (w : RemoteWorkspace) : CoderWorkspace where
  id := id
  status := w.latest.status
  latestBuildId := w.latest.id
  latestBuildTransition := w.latest.transition
  name := w.name
  templateId := some w.templateId

def RemoteWorkspace.observed (w : RemoteWorkspace) (status : BuildStatus) : RemoteWorkspace :=
  { w with latest := { w.latest with status } }

/-- What the wait for a build raises on. -/
def BuildStatus.Failing (status : BuildStatus) : Prop :=
  status = .failed ∨ status = .canceled ∨ status = .canceling

/-- The workspaces of one deployment, what an owner and a name find, and how a request
that arrives is answered. -/
structure WorkspaceService (σ : Type) where
  workspace : σ → UUID → Option RemoteWorkspace
  named : σ → String → String → Option UUID
  answers : Semantics Call WorkerError σ

namespace WorkspaceService
variable {σ : Type} (S : WorkspaceService σ)

def view (r : σ) (id : UUID) : Option CoderWorkspace :=
  (S.workspace r id).map (RemoteWorkspace.view id)

/-- Of one workspace the deployment now holds this; the others stay. -/
structure Revises (r r' : σ) (id : UUID) (w : Option RemoteWorkspace) : Prop where
  workspace : S.workspace r' id = w
  others : ∀ id', id' ≠ id → S.workspace r' id' = S.workspace r id'

/-- What an attempt at a workspace relies on at a deployment. -/
class Lawful : Prop where
  /-- A name finds a workspace that has it, if there is one. -/
  named : ∀ r owner name id, S.named r owner name = some id →
    ∃ w, S.workspace r id = some w ∧ w.owner = owner ∧ w.name = name
  unnamed : ∀ r owner name, S.named r owner name = none → ∀ id w, S.workspace r id = some w →
    ¬(w.owner = owner ∧ w.name = name)
  /-- A build is of one workspace. -/
  apart : ∀ r id id' w w', S.workspace r id = some w → S.workspace r id' = some w' →
    w.latest.id = w'.latest.id → id = id'
  /-- What is read is what there is, and stays so. -/
  authenticates : ∀ r r' url password,
    S.answers (.authenticatePreparedAdmin url password) r (.ok ()) r' ↔ r' = r
  readWorkspace : ∀ r r' url id found,
    S.answers (.workspace url id) r (.ok found) r' ↔ found = S.view r id ∧ r' = r
  readWorkspaceByName : ∀ r r' url owner name found,
    S.answers (.workspaceByOwnerAndName url owner name) r (.ok found) r' ↔
      found = (S.named r owner name).bind (S.view r) ∧ r' = r
  readParameters : ∀ r r' url id w parameters, S.workspace r id = some w →
    (S.answers (.workspaceBuildParameters url w.latest.id) r (.ok parameters) r' ↔
      parameters = w.latest.parameters ∧ r' = r)
  /-- A workspace that is created comes with its first start build. -/
  creates : ∀ r r' url owner name templateId parameters made,
    S.answers (.createWorkspace url owner name templateId parameters) r (.ok made) r' →
    ∃ w, S.workspace r' made.id = some w ∧ made = w.view made.id ∧ w.templateId = templateId ∧
      w.latest.transition = .start ∧ ¬w.latest.status.Failing
  renames : ∀ r r' url id w name, S.workspace r id = some w →
    S.answers (.updateWorkspaceName url id name) r (.ok ()) r' →
    S.workspace r' id = some { w with name }
  /-- A start build that is submitted becomes the latest. -/
  starts : ∀ r r' url id w parameters build, S.workspace r id = some w →
    S.answers (.createWorkspaceStartBuild url id parameters) r (.ok build) r' →
    build.transition = .start ∧ ¬build.status.Failing ∧
      S.workspace r' id = some { w with latest := ⟨build.id, .start, build.status, parameters⟩ }
  /-- A poll finds the build in some status, and may find it as it was. -/
  polls : ∀ r r' url id w build, S.workspace r id = some w →
    S.answers (.workspaceBuild url w.latest.id) r (.ok build) r' →
    build = ⟨w.latest.id, build.status, w.latest.transition⟩ ∧
      S.workspace r' id = some (w.observed build.status)
  idles : ∀ r url id w, S.workspace r id = some w → ∃ r',
    S.answers (.workspaceBuild url w.latest.id) r
      (.ok ⟨w.latest.id, w.latest.status, w.latest.transition⟩) r'

end WorkspaceService
end CoderManager
