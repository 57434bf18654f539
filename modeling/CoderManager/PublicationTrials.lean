import CoderManager.PublicationAttempts
import CoderManager.Refinement.Templates

/-!
# One publication under favourable circumstances

No request to Coder fails, the database answers, and the import that the attempt
starts ends well in time. An import that an earlier attempt left may end in any
way.
-/
namespace CoderManager
open Programs

/-- How imports go while an attempt runs: how often each is still found running,
and what it is found to have come to then. An attempt that waits has patience for
so many polls of a running import. -/
structure ImportCourse where
  duration : UUID → Nat
  outcome : UUID → ImportStatus
  patience : Nat

/-- The import ends well before the patience does. -/
def ImportCourse.InTime (I : ImportCourse) (versionId : UUID) : Prop :=
  I.outcome versionId = .succeeded ∧ I.duration versionId ≤ I.patience + 1

instance (I : ImportCourse) (versionId : UUID) : Decidable (I.InTime versionId) :=
  inferInstanceAs (Decidable (_ ∧ _))

/-- An attempt on its way, and how often it has looked at an import. -/
structure Trial (σ : Type) where
  world : Setting σ
  looks : Nat

namespace Trial
variable {σ : Type}

/-- What a look at an import may show. -/
def Shows (x : Trial σ) (I : ImportCourse) (version : CoderTemplateVersion) : Prop :=
  if x.looks < I.duration version.id then version.status.finished = false
  else version.status = I.outcome version.id

instance (x : Trial σ) (I : ImportCourse) (version : CoderTemplateVersion) :
    Decidable (x.Shows I version) :=
  inferInstanceAs (Decidable (if x.looks < I.duration version.id then version.status.finished = false
    else version.status = I.outcome version.id))

def look (x : Trial σ) (I : ImportCourse) (version : CoderTemplateVersion) : Option Nat :=
  if x.Shows I version then some (x.looks + 1) else none

/-- How often imports have been looked at once an operation is answered so, if it
may be answered so. -/
def answered (x : Trial σ) (I : ImportCourse) : {β : Type} → Op β → Except WorkerError β → Option Nat
  | _, .call (.templateVersion _ _), .ok version => x.look I version
  | _, .call (.templateVersionByName _ _ _ _), .ok (some version) => x.look I version
  | _, .call (.templateVersionForRecovery _ _), .ok (some version) => x.look I version
  | _, .call (.createTemplateVersion _ _ _ _ _ _), .ok version =>
      if I.InTime version.id then x.look I version else none
  | _, .call .beforeDeadline, .ok before =>
      if before = decide (x.looks ≤ I.patience + 1) then some x.looks else none
  | _, .call _, .error _ => none
  | _, _, _ => some x.looks

theorem look_eq_some {x : Trial σ} {I : ImportCourse} {version : CoderTemplateVersion} {n : Nat} :
    x.look I version = some n ↔ x.Shows I version ∧ n = x.looks + 1 := by
  unfold look
  split
  · rename_i hshows
    simp [hshows, eq_comm]
  · rename_i hshows
    simp [hshows]

end Trial

def TemplateService.favourable {σ : Type} (S : TemplateService σ) (I : ImportCourse) :
    Semantics Op WorkerError (Trial σ) := fun _ o x r x' =>
  S.Performs x.world o r x'.world ∧ r ≠ .error .databaseError ∧ x.answered I o r = some x'.looks

namespace PublicationTarget
variable {σ : Type} (A : PublicationTarget σ)

/-- The deployment is in success, and its template has a succeeded version as its
active one. -/
def Converged (w : Setting σ) : Prop :=
  ∃ d id t v, A.deployment w = some d ∧ d.status = .success ∧ d.coderTemplateId = some id ∧
    A.template w id = some t ∧ A.version w t.activeVersionId = some v ∧ v.status = .succeeded

/-- The record a publication of this commit and revision starts from. -/
def record (w : Setting σ) : TemplateDeployment := (A.deployment w).getD Store.newDeployment

def recordedTemplate (w : Setting σ) (d : TemplateDeployment) : Option CoderTemplate :=
  d.coderTemplateId.bind (A.service.viewTemplate w.remote)

/-- The version a publication finds: the one of the right name, or else the
recorded one. -/
def foundVersion (w : Setting σ) (d : TemplateDeployment) (commit : String) (revision : Nat) :
    Option UUID :=
  A.service.versionNamed w.remote A.name (versionName commit revision) <|>
    d.coderTemplateVersionId.filter fun id => (A.version w id).isSome

/-- The template of the name, where an attempt left it, is the recorded one; or the
recorded one is gone, if there was one, and the recorded version is its active one. -/
def Recognisable (sc : Scene σ) (d : TemplateDeployment) : Prop :=
  ∀ id t, A.service.templateNamed sc.world.remote A.name = some id →
    A.template sc.world id = some t → A.Created sc.history id →
    d.coderTemplateId = some id ∨
      (A.recordedTemplate sc.world d = none ∧ d.coderTemplateVersionId = some t.activeVersionId)

/-- The import of the version has succeeded, or it still runs and succeeds in time. -/
def Usable (w : Setting σ) (I : ImportCourse) (versionId : UUID) : Prop :=
  ∃ v, A.version w versionId = some v ∧
    (v.status = .succeeded ∨ (v.status.finished = false ∧ I.InTime versionId))

/-- The state lets a publication converge: it can be prepared, and what was
published before still stands, or else the template of the name is recognised and
the version that is found, if there is one, can be used. -/
def Recoverable (claim : ExecutionClaim) (snapshot : TemplateSourceSnapshot)
    (archive : TemplateArchive) (I : ImportCourse) (sc : Scene σ) : Prop :=
  (∃ prepared, sc.world.store.prepareDeployment claim A.assignmentId snapshot.id archive.commit
    snapshot.systemParameterRevision = .ok prepared) ∧
  if Store.deploymentApplied (A.record sc.world) archive.commit snapshot.systemParameterRevision then
    A.Converged sc.world
  else
    A.Recognisable sc ((A.record sc.world).aimed archive.commit snapshot.systemParameterRevision) ∧
      ∀ id, A.foundVersion sc.world
        ((A.record sc.world).aimed archive.commit snapshot.systemParameterRevision) archive.commit
          snapshot.systemParameterRevision = some id → A.Usable sc.world I id

def Unclaimed (sc : Scene σ) : Prop :=
  ∀ id t, A.template sc.world id = some t → t.name = A.name → A.Created sc.history id

end PublicationTarget
end CoderManager
