import CoderManager.Domains.Json
import CoderManager.Domains.Remote
import CoderManager.Lib.Program
import CoderManager.Lib.Text

/-!
# Argo CD

The client of the Applications API, request by request: any two responses may
contradict each other. What Python calls white space, and lower case, are
parameters.
-/
namespace CoderManager
namespace ArgoCd
open Programs

inductive ArgoCdError where
  | configurationError (message : String)
  | requestError (message : String)
  | ownershipError (message : String)
  | httpError
  deriving DecidableEq, Repr

/-- A request to the Applications API. -/
inductive Request : Type → Type where
  | getApplication (name : String) : Request Response
  | createApplication (payload : Json) : Request Response
  | updateApplication (name : String) (payload : Json) : Request Response
  | deleteApplication (name : String) : Request Response
  | syncApplication (name : String) : Request Response

abbrev Client := Prog Request ArgoCdError

def liftExcept {α : Type} : Except ArgoCdError α → Client α
  | .ok a => pure a
  | .error e => throw e

structure CyberArkParameters where
  appId : String
  certName : String
  keyName : String
  safe : String

structure ArgoCdConfig where
  region : String
  repositoryUrl : String
  repositoryPath : String
  targetRevision : String
  destinationName : String
  additionalValues : Option String
  cyberark : CyberArkParameters
  defaultAdmins : List String

/-- `deployment` is absent in a client that only reads. -/
structure ArgoCdClient where
  project : String
  applicationPrefix : String
  deployment : Option ArgoCdConfig

/-- `kubeconfig` is in base64. -/
structure HelmValues where
  slug : String
  baseDomain : String
  managedDatabaseName : String
  databaseHost : String
  databaseName : String
  databaseSchema : String
  kubeconfig : Option String

def adminUsername : String := "admin"

def maxUsernameLength : Nat := 255

def hasLineBreak (value : String) : Bool :=
  value.toList.any fun c => c == Char.ofNat 13 || c == Char.ofNat 10

def sortedNames (names : List String) : List String := names.dedup.insertionSort (· ≤ ·)

section Settings
variable (isSpace : Char → Bool) (lower : String → String)

def strip (value : String) : String :=
  .ofList ((value.toList.dropWhile isSpace).reverse.dropWhile isSpace).reverse

def normalizeUsername (username : String) : Except String String :=
  let normalized := lower (strip isSpace username)
  if normalized = "" ∨ maxUsernameLength < normalized.length then
    throw "Username must contain between 1 and 255 characters"
  else if ',' ∈ normalized.toList then throw "Username cannot contain a comma"
  else if hasLineBreak normalized then throw "Username cannot contain line breaks"
  else pure normalized

def optionalSingleLineValue (value : Option String) (name : String) :
    Except ArgoCdError (Option String) :=
  match value with
  | none => pure none
  | some value =>
      if hasLineBreak value then
        throw (.configurationError (name ++ " cannot contain line breaks"))
      else if strip isSpace value = "" then pure none
      else pure (some (strip isSpace value))

def parseDefaultAdmins (rawValue : String) : Except ArgoCdError (List String) :=
  if strip isSpace rawValue = "" then pure []
  else
    let rawAdmins := Texts.splitAt rawValue ','
    let admins := rawAdmins.map fun admin => lower (strip isSpace admin)
    if rawAdmins.any fun admin => strip isSpace admin = "" then
      throw (.configurationError "CODER_MANAGER_DEFAULT_ADMINS contains an empty username")
    else if admins.any hasLineBreak then
      throw (.configurationError "CODER_MANAGER_DEFAULT_ADMINS contains a username with line breaks")
    else if admins.any fun admin => maxUsernameLength < admin.length then
      throw (.configurationError
        "CODER_MANAGER_DEFAULT_ADMINS contains a username longer than 255 characters")
    else pure (sortedNames admins)

end Settings

section Payloads

/-- `_member_values`: the users and the administrators. -/
def memberValues (defaultAdmins : List String) (members : List (String × MemberRole)) :
    List String × List String :=
  let base := adminUsername :: defaultAdmins
  (sortedNames (base ++ members.map Prod.fst),
    sortedNames (base ++ (members.filter fun m => m.2 == .admin).map Prod.fst))

def helmScalarArgument (name value : String) : Except ArgoCdError String :=
  if hasLineBreak value then
    throw (.requestError ("Helm argument " ++ name ++ " cannot contain line breaks"))
  else pure ("--set " ++ name ++ "=" ++
    Texts.replace (Texts.replace value "\\" "\\\\") "," "\\,")

def instanceIdLabel : String := "coder-manager/instance-id"

def applicationNamespace : String := "app-code-instance"

def applicationPayload (project : String) (config : ArgoCdConfig) (name : String)
    (instanceId : UUID) (members : List (String × MemberRole)) (helmValues : HelmValues) :
    Except ArgoCdError Json := do
  let (users, admins) := memberValues config.defaultAdmins members
  let secret := fun field => "<secret:" ++ helmValues.managedDatabaseName ++ "#" ++ field ++ ">"
  let arguments ← [
    ("policy.config.allowedUsernames", ",".intercalate users),
    ("policy.config.adminUsernames", ",".intercalate admins),
    ("global.baseDomain", helmValues.baseDomain),
    ("global.identifier", helmValues.slug),
    ("server.config.postgres.username", secret "username"),
    ("server.config.postgres.password", secret "password"),
    ("server.config.postgres.host", helmValues.databaseHost),
    ("server.config.postgres.database", helmValues.databaseName),
    ("server.config.postgres.schema", helmValues.databaseSchema)].mapM
      fun argument => helmScalarArgument argument.1 argument.2
  let kube ← match helmValues.kubeconfig with
    | none => pure []
    | some kubeconfig =>
        (helmScalarArgument "server.config.kube" kubeconfig).map fun argument => [argument]
  let values := match config.additionalValues with
    | none => []
    | some additionalValues => ["--values " ++ additionalValues]
  let helmArguments := "\n".intercalate
    (values ++ ["--namespace " ++ applicationNamespace] ++ arguments ++ kube) ++ "\n"
  return .obj [
    ("apiVersion", .str "argoproj.io/v1alpha1"),
    ("kind", .str "Application"),
    ("metadata", .obj [
      ("name", .str name),
      ("labels", .obj [
        (instanceIdLabel, .str (toString instanceId)),
        ("region", .str config.region),
        ("domain", .str "code-station"),
        ("tier", .str "standard")])]),
    ("spec", .obj [
      ("project", .str project),
      ("source", .obj [
        ("repoURL", .str config.repositoryUrl),
        ("path", .str config.repositoryPath),
        ("targetRevision", .str config.targetRevision),
        ("plugin", .obj [
          ("name", .str "argocd-cyberark-plugin-helm"),
          ("env", .arr [.obj [("name", .str "HELM_ARGS"), ("value", .str helmArguments)]]),
          ("parameters", .arr [.obj [
            ("name", .str "cyberark"),
            ("map", .obj [
              ("appId", .str config.cyberark.appId),
              ("certName", .str config.cyberark.certName),
              ("keyName", .str config.cyberark.keyName),
              ("region", .str config.region),
              ("safe", .str config.cyberark.safe)])]])])]),
      ("destination", .obj [
        ("name", .str config.destinationName),
        ("namespace", .str applicationNamespace)]),
      ("syncPolicy", .obj [
        ("automated", .obj [("prune", .bool true), ("selfHeal", .bool true)])])])]

/-- The fields of an object; of anything else, none. -/
def objectFields : Option Json → List (String × Json)
  | some (.obj fields) => fields
  | _ => []

def applicationUpdatePayload (existing desired : Json) : Except ArgoCdError Json :=
  match existing.get "metadata" with
  | some (.obj existingMetadata) =>
      let labels := (objectFields (existingMetadata.lookup "labels")).filter fun label =>
        label.1 != "coder-manager/managed" && label.1 != "environment"
      let desiredMetadata := objectFields (desired.get "metadata")
      let merged := (objectFields (desiredMetadata.lookup "labels")).foldl
        (fun labels label => Json.set labels label.1 label.2) labels
      let metadata := Json.set (Json.set existingMetadata "labels" (.obj merged)) "name"
        ((desiredMetadata.lookup "name").getD .null)
      pure (.obj [
        ("apiVersion", ((existing.get "apiVersion").orElse fun _ => desired.get "apiVersion").getD .null),
        ("kind", ((existing.get "kind").orElse fun _ => desired.get "kind").getD .null),
        ("metadata", .obj metadata),
        ("spec", (desired.get "spec").getD .null)])
  | _ => throw (.requestError "Argo CD returned an Application without metadata")

end Payloads

section Applications

def nestedString (payload : Json) (path : List String) : Option String :=
  match path.foldl (fun value key => value.bind fun v => v.get key) (some payload) with
  | some (.str value) => some value
  | _ => none

def applicationOperationIsActive (application : Json) : Bool :=
  match nestedString application ["status", "operationState", "phase"] with
  | some phase => phase == "Running" || phase == "Terminating"
  | none => false

def applicationDeletionIsPending (application : Json) : Bool :=
  match (application.get "metadata").bind fun metadata => metadata.get "deletionTimestamp" with
  | none => false
  | some .null => false
  | some _ => true

structure ApplicationStatus where
  applicationName : String
  syncStatus : Option String
  healthStatus : Option String
  operationPhase : Option String
  revision : Option String
  reconciledAt : Option String
  deriving DecidableEq, Repr

def applicationStatus (name : String) (application : Json) : ApplicationStatus where
  applicationName := name
  syncStatus := nestedString application ["status", "sync", "status"]
  healthStatus := nestedString application ["status", "health", "status"]
  operationPhase := nestedString application ["status", "operationState", "phase"]
  revision := nestedString application ["status", "sync", "revision"]
  reconciledAt := nestedString application ["status", "reconciledAt"]

def applicationOwner (application : Json) : Option Json :=
  ((application.get "metadata").bind fun metadata => metadata.get "labels").bind
    fun labels => labels.get instanceIdLabel

end Applications

section Requests
variable (isSpace : Char → Bool)

def responseMessage (response : Response) : Option String :=
  match response.body.bind fun payload => payload.get "message" with
  | some (.str message) => if strip isSpace message = "" then none else some message
  | _ => none

def isSuccess (response : Response) : Bool := 200 ≤ response.statusCode && response.statusCode < 300

def raiseForResponse (response : Response) (method path : String) : Except ArgoCdError Unit :=
  if isSuccess response then pure ()
  else
    let text := "Argo CD " ++ method ++ " " ++ path ++ " returned HTTP " ++
      toString response.statusCode
    throw (.requestError (match responseMessage isSpace response with
      | some message => text ++ ": " ++ message
      | none => text))

def jsonObject (response : Response) (path : String) : Except ArgoCdError Json :=
  match response.body with
  | none => throw (.requestError ("Argo CD GET " ++ path ++ " returned invalid JSON"))
  | some payload =>
      if payload.isObject then pure payload
      else throw (.requestError ("Argo CD GET " ++ path ++ " returned a non-object JSON response"))

def applicationPath (name : String) : String := "api/v1/applications/" ++ name

def getApplication (name : String) : Client (Option Json) := do
  let response ← .perform (.getApplication name)
  if response.statusCode = 404 then return none
  liftExcept (raiseForResponse isSpace response "GET" (applicationPath name))
  let application ← liftExcept (jsonObject response (applicationPath name))
  return some application

def getOwnedApplication (name : String) (instanceId : UUID) : Client (Option Json) := do
  match ← getApplication isSpace name with
  | none => return none
  | some application =>
      match applicationOwner application with
      | some (.str owner) =>
          if owner = toString instanceId then return some application
          else throw (.ownershipError ("Argo CD Application " ++ name ++
            " is not owned by instance " ++ toString instanceId))
      | _ => throw (.ownershipError ("Argo CD Application " ++ name ++
          " is not owned by instance " ++ toString instanceId))

/-- The part of `ensure_application` from the last read on. -/
def syncApplication (name : String) (instanceId : UUID) : Client ArgoCdReconcileResult := do
  let current ← getOwnedApplication isSpace name instanceId
  if current.any applicationOperationIsActive then return ⟨.deferred, name⟩
  let response ← .perform (.syncApplication name)
  liftExcept (raiseForResponse isSpace response "POST" (applicationPath name ++ "/sync"))
  return ⟨.completed, name⟩

/-- The part of `ensure_application` that replaces what is there. -/
def updateApplication (name : String) (instanceId : UUID) (desired existing : Json) :
    Client ArgoCdReconcileResult := do
  let payload ← liftExcept (applicationUpdatePayload existing desired)
  let response ← .perform (.updateApplication name payload)
  liftExcept (raiseForResponse isSpace response "PUT" (applicationPath name))
  syncApplication isSpace name instanceId

def ensureApplication (client : ArgoCdClient) (instanceId : UUID) (slug : String)
    (attachedName : Option String) (members : List (String × MemberRole)) (helmValues : HelmValues) :
    Client ArgoCdReconcileResult := do
  match client.deployment with
  | none => throw (.configurationError
      "Argo CD deployment settings are required for Application reconciliation")
  | some config =>
      let name := applicationName client.applicationPrefix slug attachedName
      let desired ← liftExcept
        (applicationPayload client.project config name instanceId members helmValues)
      match ← getOwnedApplication isSpace name instanceId with
      | some existing =>
          if applicationOperationIsActive existing then return ⟨.deferred, name⟩
          updateApplication isSpace name instanceId desired existing
      | none =>
          let response ← .perform (.createApplication desired)
          if response.statusCode = 409 then
            -- another worker won the race
            match ← getOwnedApplication isSpace name instanceId with
            | none =>
                liftExcept (raiseForResponse isSpace response "POST" "api/v1/applications")
                syncApplication isSpace name instanceId
            | some existing =>
                if applicationOperationIsActive existing then return ⟨.deferred, name⟩
                updateApplication isSpace name instanceId desired existing
          else
            liftExcept (raiseForResponse isSpace response "POST" "api/v1/applications")
            syncApplication isSpace name instanceId

def deleteApplication (client : ArgoCdClient) (instanceId : UUID) (slug : String)
    (attachedName : Option String) : Client ArgoCdMutationStatus := do
  let name := applicationName client.applicationPrefix slug attachedName
  match ← getOwnedApplication isSpace name instanceId with
  | none => return .completed
  | some existing =>
      if applicationOperationIsActive existing || applicationDeletionIsPending existing then
        return .deferred
      let response ← .perform (.deleteApplication name)
      if response.statusCode = 404 then return .completed
      liftExcept (raiseForResponse isSpace response "DELETE" (applicationPath name))
      let remaining ← getOwnedApplication isSpace name instanceId
      return if remaining.isNone then .completed else .deferred

def applicationExists (client : ArgoCdClient) (instanceId : UUID) (slug : String)
    (attachedName : Option String) : Client Bool := do
  let name := applicationName client.applicationPrefix slug attachedName
  return (← getOwnedApplication isSpace name instanceId).isSome

/-- `get_application_status`; nothing stands for `ArgoCdApplicationNotFoundError`. -/
def getApplicationStatus (client : ArgoCdClient) (instanceId : UUID) (slug : String)
    (attachedName : Option String) : Client (Option ApplicationStatus) := do
  let name := applicationName client.applicationPrefix slug attachedName
  return (← getOwnedApplication isSpace name instanceId).map (applicationStatus name)

end Requests
end ArgoCd
end CoderManager
