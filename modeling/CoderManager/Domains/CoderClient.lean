import CoderManager.Domains.Json
import CoderManager.Domains.Remote

/-!
# What the Coder client accepts

The validators of `CoderClient`, from a response to the value that a request
answers with. Decoding the text of an identifier is a parameter: nothing here
depends on which texts denote one.
-/
namespace CoderManager

namespace CoderClient

def workspaceStatus : String → Option BuildStatus
  | "pending" => some .pending
  | "starting" => some .starting
  | "running" => some .running
  | "stopping" => some .stopping
  | "stopped" => some .stopped
  | "failed" => some .failed
  | "canceling" => some .canceling
  | "canceled" => some .canceled
  | "deleting" => some .deleting
  | "deleted" => some .deleted
  | _ => none

def workspaceTransition : String → Option Transition
  | "start" => some .start
  | "stop" => some .stop
  | "delete" => some .delete
  | _ => none

def raiseForResponse (response : Response) (method path : String) (expectedStatus : Nat) :
    Except WorkerError Unit :=
  if response.statusCode = expectedStatus then pure ()
  else throw (.coderRequestError
    ("Coder " ++ method ++ " " ++ path ++ " returned HTTP " ++ toString response.statusCode))

def jsonObject (response : Response) (path : String) : Except WorkerError Json :=
  match response.body with
  | none => throw (.coderRequestError ("Coder " ++ path ++ " returned invalid JSON"))
  | some payload =>
      if payload.isObject then pure payload
      else throw (.coderRequestError ("Coder " ++ path ++ " returned non-object JSON"))

def jsonArray (response : Response) (path : String) : Except WorkerError (List Json) :=
  let invalid := WorkerError.coderRequestError ("Coder " ++ path ++ " returned invalid array JSON")
  match response.body with
  | none => throw (.coderRequestError ("Coder " ++ path ++ " returned invalid JSON"))
  | some (.arr items) => if items.all Json.isObject then pure items else throw invalid
  | some _ => throw invalid

def usernames (response : Response) : Except WorkerError (List String) := do
  let path := "api/v2/users"
  raiseForResponse response "GET" path 200
  let payload ← jsonObject response path
  match payload.get "users", payload.get "count" with
  | some (.arr users), some (.int count) =>
      let usernames := users.filterMap fun user => user.text "username"
      if usernames.length ≠ users.length ∨ (usernames.length : Int) ≠ count ∨ "" ∈ usernames ∨
          ¬usernames.Nodup then
        throw (.coderRequestError "Coder GET api/v2/users returned an incomplete users page")
      else return usernames
  | _, _ => throw (.coderRequestError "Coder GET api/v2/users returned an invalid users page")

/-- `delete_user`: an absent account is as good as a deleted one. -/
def deleteUser (quoted : String) (response : Response) : Except WorkerError Unit :=
  if response.statusCode = 404 then pure ()
  else raiseForResponse response "DELETE" ("api/v2/users/" ++ quoted) 200

/-- Python's order on pairs of texts. -/
def parameterBefore (a b : String × String) : Prop := a.1 < b.1 ∨ (a.1 = b.1 ∧ a.2 ≤ b.2)

instance : DecidableRel parameterBefore := fun a b =>
  inferInstanceAs (Decidable (a.1 < b.1 ∨ (a.1 = b.1 ∧ a.2 ≤ b.2)))

def buildParameter (path : String) (item : Json) : Except WorkerError (String × String) :=
  let invalid := WorkerError.coderRequestError ("Coder " ++ path ++ " returned invalid build parameters")
  match item.text "name", item.text "value" with
  | some name, some value => if name = "" then throw invalid else pure (name, value)
  | _, _ => throw invalid

def workspaceBuildParameters (buildId : UUID) (response : Response) :
    Except WorkerError (List (String × String)) := do
  let path := "api/v2/workspacebuilds/" ++ toString buildId ++ "/parameters"
  raiseForResponse response "GET" path 200
  let payload ← jsonArray response path
  let values ← payload.mapM (buildParameter path)
  if ¬(values.map Prod.fst).Nodup then
    throw (.coderRequestError ("Coder " ++ path ++ " returned duplicate build parameters"))
  else return values.insertionSort parameterBefore

section Identifiers
variable (uuid : Json → Option UUID)

def uuidField (payload : Json) (field path : String) : Except WorkerError UUID :=
  match (payload.get field).bind uuid with
  | some id => pure id
  | none => throw (.coderRequestError ("Coder " ++ path ++ " returned an invalid " ++ field))

def optionalUuidField (payload : Json) (field path : String) : Except WorkerError (Option UUID) :=
  match payload.get field with
  | none => pure none
  | some .null => pure none
  | some value =>
      match uuid value with
      | some id => pure (some id)
      | none => throw (.coderRequestError ("Coder " ++ path ++ " returned an invalid " ++ field))

def buildState (payload : Json) : Option (BuildStatus × Transition) := do
  let status ← (payload.text "status").bind workspaceStatus
  let transition ← (payload.text "transition").bind workspaceTransition
  return (status, transition)

def pageItem (path : String) (item : Json) : Except WorkerError CoderWorkspace := do
  if !item.isObject then
    throw (.coderRequestError "Coder GET api/v2/workspaces returned an invalid workspace")
  let invalid := WorkerError.coderRequestError
    "Coder GET api/v2/workspaces returned an invalid latest build"
  match item.get "latest_build" with
  | some (.obj fields) =>
      match buildState (.obj fields) with
      | none => throw invalid
      | some (status, transition) =>
          return {
            id := ← uuidField uuid item "id" path
            status
            latestBuildId := ← uuidField uuid (.obj fields) "id" path
            latestBuildTransition := transition
            name := (item.text "name").getD ""
            templateId := ← optionalUuidField uuid item "template_id" path }
  | _ => throw invalid

def workspaces (offset limit : Nat) (response : Response) :
    Except WorkerError CoderWorkspacePage := do
  let path := "api/v2/workspaces"
  raiseForResponse response "GET" path 200
  let payload ← jsonObject response path
  match payload.get "workspaces", payload.get "count" with
  | some (.arr rawWorkspaces), some (.int (.ofNat count)) =>
      let items ← rawWorkspaces.mapM (pageItem uuid path)
      -- subtraction stops at zero here
      if items.length ≠ min limit (count - offset) then
        throw (.coderRequestError
          "Coder GET api/v2/workspaces returned an incomplete workspace page")
      else return ⟨items, count⟩
  | _, _ => throw (.coderRequestError
      "Coder GET api/v2/workspaces returned an invalid workspace page")

end Identifiers
end CoderClient
end CoderManager
