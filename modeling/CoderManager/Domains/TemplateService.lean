import CoderManager.Domains.Remote
import CoderManager.Lib.Hoare

/-!
# The templates of a Coder deployment

Coder keeps templates and imports their versions. It is not part of this
repository: a `TemplateService` says what a deployment holds and how it may
answer, and `Lawful` what a publication relies on. A request may fail before its
effect, or its answer may be lost after it.
-/
namespace CoderManager
open Programs

structure RemoteTemplate where
  name : String
  activeVersionId : UUID
  deriving DecidableEq, Repr

structure RemoteVersion where
  name : String
  templateId : Option UUID
  status : ImportStatus
  archived : Bool
  deriving DecidableEq, Repr

def ImportStatus.finished : ImportStatus → Bool
  | .succeeded | .failed | .canceled | .cancelled => true
  | .pending | .running | .other _ => false

def RemoteTemplate.view (id : UUID) (t : RemoteTemplate) : CoderTemplate := ⟨id, some t.activeVersionId⟩

def RemoteVersion.view (id : UUID) (v : RemoteVersion) : CoderTemplateVersion :=
  ⟨id, v.status, v.archived⟩

/-- Requests that neither create, change nor delete a template and create no
version. -/
def Call.keepsTemplates : {β : Type} → Call β → Bool
  | _, .createTemplateVersion _ _ _ _ _ _ | _, .createTemplate _ _ _ _ _
  | _, .activateTemplateVersion _ _ _ | _, .deleteTemplate _ _ => false
  | _, _ => true

def Call.deletesTemplate : {β : Type} → Call β → Bool
  | _, .deleteTemplate _ _ => true
  | _, _ => false

/-- The templates and versions of one deployment, what their names find, the
identifiers given out so far, and how a request may be answered. -/
structure TemplateService (σ : Type) where
  template : σ → UUID → Option RemoteTemplate
  version : σ → UUID → Option RemoteVersion
  templateNamed : σ → String → Option UUID
  versionNamed : σ → String → String → Option UUID
  issued : σ → UUID → Prop
  answers : Semantics Call WorkerError σ

namespace TemplateService
variable {σ : Type} (S : TemplateService σ)

def viewTemplate (r : σ) (id : UUID) : Option CoderTemplate :=
  (S.template r id).map (RemoteTemplate.view id)

def viewVersion (r : σ) (id : UUID) : Option CoderTemplateVersion :=
  (S.version r id).map (RemoteVersion.view id)

/-- The templates are the same, and so are the identifiers of the versions and what
names find. -/
structure Keeps (r r' : σ) : Prop where
  issued : ∀ id, S.issued r id → S.issued r' id
  templates : ∀ id, S.template r' id = S.template r id
  versions : ∀ id, (S.version r' id).isSome = (S.version r id).isSome
  templateNamed : ∀ name, S.templateNamed r' name = S.templateNamed r name
  versionNamed : ∀ name versionName, S.versionNamed r' name versionName =
    S.versionNamed r name versionName

/-- One new version. -/
structure Imports (r r' : σ) (id : UUID) (v : RemoteVersion) : Prop where
  fresh : ¬S.issued r id
  issued : ∀ id', S.issued r id' → S.issued r' id'
  templates : ∀ id', S.template r' id' = S.template r id'
  version : S.version r' id = some v
  versions : ∀ id', id' ≠ id → (S.version r' id').isSome = (S.version r id').isSome

/-- One new template. -/
structure Adds (r r' : σ) (id : UUID) (t : RemoteTemplate) : Prop where
  fresh : ¬S.issued r id
  issued : ∀ id', S.issued r id' → S.issued r' id'
  template : S.template r' id = some t
  templates : ∀ id', id' ≠ id → S.template r' id' = S.template r id'
  versions : ∀ id', (S.version r' id').isSome = (S.version r id').isSome

structure Activates (r r' : σ) (id versionId : UUID) : Prop where
  issued : ∀ id', S.issued r id' → S.issued r' id'
  template : ∃ t, S.template r id = some t ∧
    S.template r' id = some { t with activeVersionId := versionId }
  templates : ∀ id', id' ≠ id → S.template r' id' = S.template r id'
  versions : ∀ id', (S.version r' id').isSome = (S.version r id').isSome

structure Deletes (r r' : σ) : Prop where
  issued : ∀ id, S.issued r id → S.issued r' id
  templates : ∀ id t, S.template r' id = some t → S.template r id = some t
  versions : ∀ id, (S.version r' id).isSome = true → (S.version r id).isSome = true

/-- What a publication relies on at a deployment. -/
class Lawful (url : InstanceUrl) : Prop where
  /-- A name finds a template that has it, if there is one. -/
  templateNamed : ∀ r name id, S.templateNamed r name = some id →
    ∃ t, S.template r id = some t ∧ t.name = name
  unnamed : ∀ r name, S.templateNamed r name = none → ∀ id t, S.template r id = some t →
    t.name ≠ name
  /-- Two names find a version of the one on the template of the other. -/
  versionNamed : ∀ r name versionName id, S.versionNamed r name versionName = some id →
    ∃ v, S.version r id = some v ∧ v.name = versionName ∧ (S.templateNamed r name).isSome = true ∧
      v.templateId = S.templateNamed r name
  /-- What exists has an identifier that was given out. -/
  issuedTemplate : ∀ r id t, S.template r id = some t →
    S.issued r id ∧ S.issued r t.activeVersionId
  issuedVersion : ∀ r id v, S.version r id = some v → S.issued r id
  keeps : ∀ r r' {β : Type} (c : Call β) answer, c.keepsTemplates = true →
    S.answers c r answer r' → S.Keeps r r'
  /-- An import that has ended stays as it ended, as long as no template is deleted. -/
  finished : ∀ r r' {β : Type} (c : Call β) answer id v, c.deletesTemplate = false →
    S.answers c r answer r' → S.version r id = some v → v.status.finished = true →
    ∃ v', S.version r' id = some v' ∧ v'.status = v.status
  /-- What is read is what there is. -/
  readTemplate : ∀ r r' id found, S.answers (.template url id) r (.ok found) r' →
    found = S.viewTemplate r id
  readTemplateByName : ∀ r r' organizationId name found,
    S.answers (.templateByName url organizationId name) r (.ok found) r' →
    found = (S.templateNamed r name).bind (S.viewTemplate r)
  readVersionByName : ∀ r r' organizationId name versionName found,
    S.answers (.templateVersionByName url organizationId name versionName) r (.ok found) r' →
    found = (S.versionNamed r name versionName).bind (S.viewVersion r)
  readVersionForRecovery : ∀ r r' id found,
    S.answers (.templateVersionForRecovery url id) r (.ok found) r' → found = S.viewVersion r id
  readVersion : ∀ r r' id found, S.answers (.templateVersion url id) r (.ok found) r' →
    S.viewVersion r' id = some found
  /-- A request to change something fails without an effect, or has the effect. -/
  createVersion : ∀ r r' organizationId fileId name templateId values answer,
    S.answers (.createTemplateVersion url organizationId fileId name templateId values) r answer r' →
    (S.Keeps r r' ∧ ∃ e, answer = .error e) ∨
      ∃ id v, S.Imports r r' id v ∧ ∀ made, answer = .ok made → made = v.view id
  createTemplate : ∀ r r' organizationId name displayName versionId answer,
    S.answers (.createTemplate url organizationId name displayName versionId) r answer r' →
    (S.Keeps r r' ∧ ∃ e, answer = .error e) ∨
      ∃ id, S.Adds r r' id ⟨name, versionId⟩ ∧ ∀ made, answer = .ok made → made.id = id
  activateVersion : ∀ r r' id versionId answer,
    S.answers (.activateTemplateVersion url id versionId) r answer r' →
    (S.Keeps r r' ∧ ∃ e, answer = .error e) ∨ S.Activates r r' id versionId
  deleteTemplate : ∀ r r' id answer, S.answers (.deleteTemplate url id) r answer r' →
    S.Deletes r r'

end TemplateService
end CoderManager
