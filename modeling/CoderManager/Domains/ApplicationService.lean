import CoderManager.Domains.ArgoCd
import CoderManager.Lib.Crew

/-!
# A shared Argo CD server

Argo CD is not part of this repository: an `ApplicationService` says which Applications
the client's project of a server holds and what becomes of them, and `Lawful` what the
client relies on. A request may be refused, and its answer may be lost.
-/
namespace CoderManager
namespace ArgoCd
open Programs

def applicationLabels (application : Json) : List (String × Json) :=
  objectFields ((application.get "metadata").bind fun metadata => metadata.get "labels")

theorem applicationOwner_eq (application : Json) :
    applicationOwner application = (applicationLabels application).lookup instanceIdLabel := by
  unfold applicationOwner applicationLabels
  generalize ((application.get "metadata").bind fun metadata => metadata.get "labels") = found
  cases found with
  | none => rfl
  | some json => cases json <;> rfl

/-- The Applications of one project, by name. `perform` carries a request out as the
server decides, `reconcile` is Argo CD at work on an Application, and `intervene` is
another user who puts an Application under a name or removes it. -/
structure ApplicationService (σ ρ ζ : Type) where
  application : σ → String → Option Json
  perform : {β : Type} → Request β → ρ → σ → Except ArgoCdError β × σ
  reconcile : String → ζ → σ → σ
  intervene : String → ζ → σ → σ

namespace ApplicationService
variable {σ ρ ζ : Type} (S : ApplicationService σ ρ ζ)

def Spares (s s' : σ) (name : String) : Prop :=
  ∀ other, other ≠ name → S.application s' other = S.application s other

/-- One Application goes on, or goes; its labels stay. -/
structure Advances (s s' : σ) (name : String) : Prop where
  spares : S.Spares s s' name
  labels : ∀ application, S.application s' name = some application →
    ∃ before, S.application s name = some before ∧
      applicationLabels application = applicationLabels before

/-- One Application is put as it is given, with the labels of the payload among its own,
or stays as it is. -/
structure Puts (s s' : σ) (name : String) (payload : Json) : Prop where
  spares : S.Spares s s' name
  labels : ∀ application, S.application s' name = some application →
    S.application s name = some application ∨
      ∀ label value, (applicationLabels payload).lookup label = some value →
        (applicationLabels application).lookup label = some value

/-- What the client relies on at a server. -/
class Lawful : Prop where
  /-- A read changes nothing, and is answered for what there is. -/
  reads : ∀ name decision s other,
    S.application (S.perform (.getApplication name) decision s).2 other = S.application s other
  absent : ∀ name decision s response,
    (S.perform (.getApplication name) decision s).1 = .ok response →
    response.statusCode = 404 → S.application s name = none
  found : ∀ name decision s response application,
    (S.perform (.getApplication name) decision s).1 = .ok response → isSuccess response = true →
    response.body = some application → S.application s name = some application
  /-- A request to change an Application changes no other, and labels are as given. -/
  creates : ∀ payload name decision s, nestedString payload ["metadata", "name"] = some name →
    S.Puts s (S.perform (.createApplication payload) decision s).2 name payload
  updates : ∀ name payload decision s,
    S.Puts s (S.perform (.updateApplication name payload) decision s).2 name payload
  deletes : ∀ name decision s, S.Advances s (S.perform (.deleteApplication name) decision s).2 name
  syncs : ∀ name decision s, S.Advances s (S.perform (.syncApplication name) decision s).2 name
  /-- A deletion finds nothing only where there is nothing. -/
  missing : ∀ name decision s response,
    (S.perform (.deleteApplication name) decision s).1 = .ok response →
    response.statusCode = 404 → S.application s name = none
  /-- What is synchronized is there. -/
  synced : ∀ name decision s response,
    (S.perform (.syncApplication name) decision s).1 = .ok response →
    isSuccess response = true → ∃ application, S.application s name = some application
  /-- Argo CD does not relabel Applications by itself. -/
  reconciles : ∀ name change s, S.Advances s (S.reconcile name change s) name
  intervenes : ∀ name change s, S.Spares s (S.intervene name change s) name

end ApplicationService

section Calls
variable (isSpace : Char → Bool)

/-- What is asked of Argo CD for an instance. -/
inductive CallKind where
  | ensure (members : List (String × MemberRole)) (helmValues : HelmValues)
  | delete
  | exists
  | status

structure Call where
  instanceId : UUID
  slug : String
  attachedName : Option String
  asked : CallKind

namespace Call

def name (client : ArgoCdClient) (call : Call) : String :=
  applicationName client.applicationPrefix call.slug call.attachedName

def body (client : ArgoCdClient) (call : Call) : Client Unit := do
  match call.asked with
  | .ensure members helmValues =>
      let _ ← ensureApplication isSpace client call.instanceId call.slug call.attachedName members
        helmValues
  | .delete =>
      let _ ← deleteApplication isSpace client call.instanceId call.slug call.attachedName
  | .exists =>
      let _ ← applicationExists isSpace client call.instanceId call.slug call.attachedName
  | .status =>
      let _ ← getApplicationStatus isSpace client call.instanceId call.slug call.attachedName

end Call
end Calls

/-- What happens on the server beside the calls. -/
inductive Elsewhere (ζ : Type) where
  | reconciled (name : String) (change : ζ)
  | other (name : String) (change : ζ)

def Elsewhere.name {ζ : Type} : Elsewhere ζ → String
  | .reconciled name _ | .other name _ => name

namespace ApplicationService
variable {σ ρ ζ : Type} (S : ApplicationService σ ρ ζ)

def react : Elsewhere ζ → σ → σ
  | .reconciled name change, s => S.reconcile name change s
  | .other name change, s => S.intervene name change s

/-- The calls of one client, any number at a time. -/
def machine (isSpace : Char → Bool) (client : ArgoCdClient) :
    Machine Request ArgoCdError σ ρ (Elsewhere ζ) Call where
  perform := S.perform
  react := S.react
  body := Call.body isSpace client

end ApplicationService
end ArgoCd
end CoderManager
