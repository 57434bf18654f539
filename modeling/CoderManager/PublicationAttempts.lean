import CoderManager.Domains.TemplateService
import CoderManager.Publications
import CoderManager.System

/-!
# Publication attempts of one assignment

The attempts follow one another and may each stop between any two operations.
Around them other parties change the database and the deployment. What an attempt
did is kept as a history, so that it can be said of a remote template whether an
attempt brought it into being.
-/
namespace CoderManager
open Programs

/-- The database and the templates of one deployment. -/
structure Setting (σ : Type) where
  store : Store
  remote : σ

/-- One operation, in a setting. -/
inductive TemplateService.Performs {σ : Type} (S : TemplateService σ) (w : Setting σ) :
    {β : Type} → Op β → Except WorkerError β → Setting σ → Prop where
  | query {β : Type} {q : Query β} {reply : Reply} {r : Except WorkerError β} {v : World}
      (performed : World.perform ⟨w.store⟩ reply (.query q) = (r, v)) : S.Performs w (.query q) r w
  | transaction {β : Type} {t : Transaction β} {reply : Reply} {r : Except WorkerError β} {v : World}
      (performed : World.perform ⟨w.store⟩ reply (.transaction t) = (r, v)) :
      S.Performs w (.transaction t) r { w with store := v.store }
  | call {β : Type} {c : Call β} {r : Except WorkerError β} {remote : σ}
      (answered : S.answers c w.remote r remote) : S.Performs w (.call c) r { w with remote }

/-- One operation of an attempt, between the settings before and after it. -/
structure Moment (σ : Type) where
  before : Setting σ
  event : Event Op WorkerError
  after : Setting σ

/-- Newest first. -/
abbrev Moments (σ : Type) := List (Moment σ)

/-- The setting after some attempts, and what they did. -/
structure Scene (σ : Type) where
  world : Setting σ
  history : Moments σ

variable {σ : Type}

/-- The template a version is activated on, that is recorded or that is deleted. -/
def Moment.touched (m : Moment σ) : Option UUID :=
  match m.event with
  | ⟨.call (.activateTemplateVersion _ templateId _), _⟩ => some templateId
  | ⟨.call (.deleteTemplate _ templateId), _⟩ => some templateId
  | ⟨.transaction (.storeTemplateRemoteIds _ _ _ templateId _), _⟩ => templateId
  | _ => none

def Moments.met : Moments σ → Option CoderTemplate
  | [] => none
  | m :: h =>
      match m.event with
      | ⟨.call (.templateByName _ _ _), .ok found⟩ => found
      | _ => met h

namespace Scene

/-- The scene in which others have moved. -/
def at_ (sc : Scene σ) (w : Setting σ) : Scene σ := { sc with world := w }

def after (sc : Scene σ) {β : Type} (o : Op β) (r : Except WorkerError β) (w : Setting σ) : Scene σ :=
  ⟨w, ⟨sc.world, ⟨o, r⟩, w⟩ :: sc.history⟩

end Scene

/-- An assignment, the deployment it publishes to and the name it publishes. -/
structure PublicationTarget (σ : Type) where
  assignmentId : UUID
  url : InstanceUrl
  name : String
  service : TemplateService σ

namespace PublicationTarget
variable (A : PublicationTarget σ)

def assignment (w : Setting σ) : Option TemplateAssignment :=
  w.store.assignments.lookup A.assignmentId

def deployment (w : Setting σ) : Option TemplateDeployment :=
  w.store.deployments.lookup A.assignmentId

def template (w : Setting σ) (templateId : UUID) : Option RemoteTemplate :=
  A.service.template w.remote templateId

def version (w : Setting σ) (versionId : UUID) : Option RemoteVersion :=
  A.service.version w.remote versionId

def Issued (w : Setting σ) (id : UUID) : Prop := A.service.issued w.remote id

def Brings (m : Moment σ) (templateId : UUID) : Prop :=
  A.template m.before templateId = none ∧ (A.template m.after templateId).isSome = true

def Imports (m : Moment σ) (versionId : UUID) : Prop :=
  A.version m.before versionId = none ∧ (A.version m.after versionId).isSome = true

instance (m : Moment σ) (templateId : UUID) : Decidable (A.Brings m templateId) :=
  inferInstanceAs (Decidable (_ ∧ _))

def Created (h : Moments σ) (templateId : UUID) : Prop := ∃ m ∈ h, A.Brings m templateId

instance (h : Moments σ) (templateId : UUID) : Decidable (A.Created h templateId) :=
  inferInstanceAs (Decidable (∃ m ∈ h, A.Brings m templateId))

def Made (h : Moments σ) (versionId : UUID) : Prop := ∃ m ∈ h, A.Imports m versionId

def Records (w : Setting σ) (templateId : UUID) : Prop :=
  ∃ d, A.deployment w = some d ∧ d.coderTemplateId = some templateId

/-- What a store still says of the assignment and its deployment: the assignment
stays with its instance, and what its deployment records goes only with it. The
manager keeps to it, by `record_is_kept`. -/
structure KeepsRecord (s s' : Store) : Prop where
  recorded : ∀ d, s'.deployments.lookup A.assignmentId = some d →
    ∃ d₀, s.deployments.lookup A.assignmentId = some d₀ ∧
      d.coderTemplateId = d₀.coderTemplateId ∧
      d.coderTemplateVersionId = d₀.coderTemplateVersionId ∧ d.targetCommit = d₀.targetCommit ∧
      d.targetSystemParameterRevision = d₀.targetSystemParameterRevision
  kept : ∀ a, s'.assignments.lookup A.assignmentId = some a →
    ∃ a₀, s.assignments.lookup A.assignmentId = some a₀ ∧ a.instanceId = a₀.instanceId ∧
      ((s.deployments.lookup A.assignmentId).isSome = true →
        (s'.deployments.lookup A.assignmentId).isSome = true)

/-- What may happen beside the attempts: anything to the templates, as long as no
identifier is given out twice. -/
structure Beside (sc : Scene σ) (w : Setting σ) : Prop where
  issued : ∀ id, A.Issued sc.world id → A.Issued w id
  fresh : ∀ id t, A.template w id = some t → A.template sc.world id = none →
    ¬A.Issued sc.world id
  store : A.KeepsRecord sc.world.store w.store

/-- Other parties leave alone the name and the active version of a template of the
assignment that is not recorded, and give no template of their own a version that
an attempt made. -/
structure Considerate (sc : Scene σ) (w : Setting σ) : Prop where
  ours : ∀ id t t₀, A.Created sc.history id → ¬A.Records sc.world id →
    A.template sc.world id = some t₀ → A.template w id = some t →
    t.name = t₀.name ∧ t.activeVersionId = t₀.activeVersionId
  theirs : ∀ id t, ¬A.Created sc.history id → A.template w id = some t →
    ¬A.Made sc.history t.activeVersionId

structure Limits (σ : Type) where
  moves : Scene σ → Setting σ → Prop
  starts : Scene σ → TemplateSourceSnapshot → TemplateArchive → Prop

def Limits.none : Limits σ := ⟨fun _ _ => True, fun _ _ _ => True⟩

variable (L : Limits σ)

/-- One operation of an attempt, after what may have happened beside it. Requests
fail with other errors than the rejection. -/
def semantics : Semantics Op WorkerError (Scene σ) := fun _ o sc r sc' =>
  ∃ w w', (w = sc.world ∨ (A.Beside sc w ∧ L.moves sc w)) ∧ A.service.Performs w o r w' ∧
    (∀ c, o = .call c → r ≠ .error ownedOutside) ∧ sc' = (sc.at_ w).after o r w'

structure Untried (sc : Scene σ) : Prop where
  history : sc.history = []
  deployment : A.deployment sc.world = none
  place : ∀ a, A.assignment sc.world = some a → a.instanceId = A.url

/-- `sync_template_target` for this assignment. -/
def publish (snapshot : TemplateSourceSnapshot) (archive : TemplateArchive) (claim : ExecutionClaim)
    (fuel : Nat) : Worker Bool :=
  syncTemplateTarget snapshot archive A.assignmentId claim (publicationHeartbeat claim) fuel

/-- The scenes that attempts lead to, each stopping anywhere. -/
inductive Attempted : Scene σ → Prop where
  | start {sc : Scene σ} (untried : A.Untried sc) : Attempted sc
  | beside {sc : Scene σ} {w : Setting σ} (before : Attempted sc) (moved : A.Beside sc w)
      (limited : L.moves sc w) : Attempted (sc.at_ w)
  | publish {sc sc' : Scene σ} {snapshot : TemplateSourceSnapshot} {archive : TemplateArchive}
      {claim : ExecutionClaim} {fuel : Nat} {rest : Worker Bool} (before : Attempted sc)
      (named : snapshot.name = A.name) (limited : L.starts sc snapshot archive)
      (reached : Proceeds (A.semantics L) (A.publish snapshot archive claim fuel) sc rest sc') :
      Attempted sc'
  | remove {sc sc' : Scene σ} {claim : ExecutionClaim} {fuel : Nat} {rest : Worker TaskStatus}
      (before : Attempted sc) (resource : claim.resourceId = some A.assignmentId)
      (reached : Proceeds (A.semantics L) (Tasks.deleteTemplate fuel claim) sc rest sc') :
      Attempted sc'

/-- Every template touched so far had been created by an attempt. -/
def TouchesOwn (h : Moments σ) : Prop :=
  ∀ m older, m :: older <:+ h → ∀ id, m.touched = some id → A.Created older id

/-- An attempt that rejects a template rejects one that no attempt created. -/
def RejectsForeign (sc sc' : Scene σ) (snapshot : TemplateSourceSnapshot)
    (archive : TemplateArchive) : Prop :=
  ∀ claim fuel, Proceeds (A.semantics L) (A.publish snapshot archive claim fuel) sc
    (.raise ownedOutside) sc' →
    ∃ named, sc'.history.met = some named ∧ ¬A.Created sc'.history named.id

def Recognised (sc : Scene σ) : Prop :=
  A.TouchesOwn sc.history ∧ ∀ sc' snapshot archive, snapshot.name = A.name →
    L.starts sc snapshot archive → A.RejectsForeign L sc sc' snapshot archive

/-- While a template of the assignment exists that the deployment does not name,
the publication is of the commit and the revision the deployment aimed at. -/
def SameTarget (sc : Scene σ) (snapshot : TemplateSourceSnapshot) (archive : TemplateArchive) : Prop :=
  ∀ id t, A.Created sc.history id → A.template sc.world id = some t → ¬A.Records sc.world id →
    ∃ d, A.deployment sc.world = some d ∧ d.targetCommit = some archive.commit ∧
      d.targetSystemParameterRevision = some snapshot.systemParameterRevision

/-- The limits under which ownership is recognised. -/
def settled : Limits σ := ⟨A.Considerate, A.SameTarget⟩

end PublicationTarget
end CoderManager
