import CoderManager.Tasks.Operations

/-!
# Remote systems

Requests to Argo CD, PostgreSQL, Git, Celery and Coder. What they answer is
chosen freely by the environment, as a `Reply`.
-/
namespace CoderManager
open Tables

inductive ArgoCdMutationStatus where
  | completed
  | deferred
  deriving DecidableEq, Repr

structure ArgoCdReconcileResult where
  status : ArgoCdMutationStatus
  applicationName : String
  deriving DecidableEq, Repr

/-- `application_name`: the attached name, or the one built from the slug. -/
def applicationName (applicationPrefix slug : String) : Option String → String
  | some attachedName =>
      if attachedName = "" then applicationPrefix ++ "-" ++ slug else attachedName
  | none => applicationPrefix ++ "-" ++ slug

/-- The latest build status of a remote workspace, or the status of a build. -/
inductive BuildStatus where
  | pending
  | starting
  | running
  | stopping
  | stopped
  | failed
  | canceling
  | canceled
  | deleting
  | deleted
  | other (name : String)
  deriving DecidableEq, Repr

inductive Transition where
  | start
  | stop
  | delete
  | other (name : String)
  deriving DecidableEq, Repr

structure CoderWorkspace where
  id : UUID
  status : BuildStatus
  latestBuildId : UUID
  latestBuildTransition : Transition
  name : String
  templateId : Option UUID
  deriving DecidableEq, Repr

structure CoderWorkspacePage where
  items : List CoderWorkspace
  count : Nat
  deriving DecidableEq, Repr

structure CoderWorkspaceBuild where
  id : UUID
  status : BuildStatus
  transition : Transition
  deriving DecidableEq, Repr

/-- The provisioner job state of a template version. -/
inductive ImportStatus where
  | pending
  | running
  | succeeded
  | failed
  | canceled
  | cancelled
  | other (name : String)
  deriving DecidableEq, Repr

structure CoderTemplate where
  id : UUID
  activeVersionId : Option UUID
  deriving DecidableEq, Repr

structure CoderTemplateVersion where
  id : UUID
  status : ImportStatus
  archived : Bool
  deriving DecidableEq, Repr

/-- An archive, as the commit and the directory it was written from: a commit
determines its tree. -/
structure ArchiveContent where
  commit : String
  sourcePath : String
  deriving DecidableEq, Repr

structure TemplateArchive where
  commit : String
  content : ArchiveContent
  deriving DecidableEq, Repr

/-- Requests to other systems. -/
inductive Call : Type → Type where
  | delay (taskName : TaskName) (jobId : UUID) : Call Bool
  | beforeDeadline : Call Bool
  | createSchema (target : SchemaTarget) : Call Unit
  | dropSchema (target : SchemaTarget) : Call Unit
  | reconcileInstanceApplication (instanceId : UUID) (slug : String) (attachedName : Option String)
      (members : List (String × MemberRole)) (helmValues : InstanceHelmValues) :
      Call ArgoCdReconcileResult
  | deleteInstanceApplication (instanceId : UUID) (slug : String) (attachedName : Option String) :
      Call ArgoCdMutationStatus
  | instanceApplicationExists (instanceId : UUID) (slug : String) (attachedName : Option String) :
      Call Bool
  | fetchBranchArchive (gitUrl branch sourcePath : String) : Call TemplateArchive
  | hasFirstUser (url : InstanceUrl) : Call Bool
  | createFirstUser (url : InstanceUrl) (password : String) : Call Unit
  | authenticatePreparedAdmin (url : InstanceUrl) (password : String) : Call Unit
  | usernames (url : InstanceUrl) : Call (List String)
  | deleteUser (url : InstanceUrl) (username : String) : Call Unit
  | workspaces (url : InstanceUrl) (status : Option BuildStatus) (offset limit : Nat) :
      Call CoderWorkspacePage
  | workspace (url : InstanceUrl) (workspaceId : UUID) : Call (Option CoderWorkspace)
  | workspaceByOwnerAndName (url : InstanceUrl) (owner name : String) : Call (Option CoderWorkspace)
  | createWorkspace (url : InstanceUrl) (owner name : String) (templateId : UUID)
      (parameters : List (String × String)) : Call CoderWorkspace
  | updateWorkspaceName (url : InstanceUrl) (workspaceId : UUID) (name : String) : Call Unit
  | workspaceBuildParameters (url : InstanceUrl) (buildId : UUID) : Call (List (String × String))
  | createWorkspaceStartBuild (url : InstanceUrl) (workspaceId : UUID)
      (parameters : List (String × String)) : Call CoderWorkspaceBuild
  | createWorkspaceStopBuild (url : InstanceUrl) (workspaceId : UUID) : Call CoderWorkspaceBuild
  | createWorkspaceDeleteBuild (url : InstanceUrl) (workspaceId : UUID) : Call CoderWorkspaceBuild
  | workspaceBuild (url : InstanceUrl) (buildId : UUID) : Call CoderWorkspaceBuild
  | defaultOrganizationId (url : InstanceUrl) : Call UUID
  | template (url : InstanceUrl) (templateId : UUID) : Call (Option CoderTemplate)
  | templateByName (url : InstanceUrl) (organizationId : UUID) (name : String) :
      Call (Option CoderTemplate)
  | templateVersionByName (url : InstanceUrl) (organizationId : UUID)
      (templateName versionName : String) : Call (Option CoderTemplateVersion)
  | templateVersion (url : InstanceUrl) (versionId : UUID) : Call CoderTemplateVersion
  | templateVersionForRecovery (url : InstanceUrl) (versionId : UUID) :
      Call (Option CoderTemplateVersion)
  | uploadTemplateArchive (url : InstanceUrl) (content : ArchiveContent) : Call UUID
  | createTemplateVersion (url : InstanceUrl) (organizationId fileId : UUID) (versionName : String)
      (templateId : Option UUID) (userVariableValues : List (String × String)) :
      Call CoderTemplateVersion
  | createTemplate (url : InstanceUrl) (organizationId : UUID) (name displayName : String)
      (versionId : UUID) : Call CoderTemplate
  | activateTemplateVersion (url : InstanceUrl) (templateId versionId : UUID) : Call Unit
  | unarchiveTemplateVersion (url : InstanceUrl) (versionId : UUID) : Call Unit
  | deleteTemplate (url : InstanceUrl) (templateId : UUID) : Call Unit

/-- What the environment chooses at one operation. `fail` raises without an
effect, on a transaction too. -/
inductive Reply where
  | done
  | fail (error : WorkerError)
  | flag (value : Bool)
  | token (value : String)
  | outcome (status : ArgoCdMutationStatus) (applicationPrefix : String)
  | identifier (id : UUID)
  | names (usernames : List String)
  | page (page : CoderWorkspacePage)
  | workspace (workspace : Option CoderWorkspace)
  | build (build : CoderWorkspaceBuild)
  | parameters (parameters : List (String × String))
  | archive (archive : TemplateArchive)
  | template (template : Option CoderTemplate)
  | version (version : Option CoderTemplateVersion)

/-- What a reply says to a request. One of another kind is a malformed response. -/
def Call.read (reply : Reply) : {β : Type} → Call β → Except WorkerError β
  | _, .delay _ _ | _, .beforeDeadline | _, .instanceApplicationExists _ _ _ | _, .hasFirstUser _ =>
      match reply with
      | .flag value => .ok value
      | _ => .error .httpError
  | _, .createSchema _ | _, .dropSchema _ | _, .createFirstUser _ _
  | _, .authenticatePreparedAdmin _ _ | _, .deleteUser _ _ | _, .updateWorkspaceName _ _ _
  | _, .activateTemplateVersion _ _ _ | _, .unarchiveTemplateVersion _ _ | _, .deleteTemplate _ _ =>
      match reply with
      | .done => .ok ()
      | _ => .error .httpError
  | _, .reconcileInstanceApplication _ slug attachedName _ _ =>
      match reply with
      | .outcome status applicationPrefix =>
          .ok ⟨status, applicationName applicationPrefix slug attachedName⟩
      | _ => .error .argoCdError
  | _, .deleteInstanceApplication _ _ _ =>
      match reply with
      | .outcome status _ => .ok status
      | _ => .error .argoCdError
  | _, .fetchBranchArchive _ _ _ =>
      match reply with
      | .archive archive => .ok archive
      | _ => .error .templateSourceError
  | _, .usernames _ =>
      match reply with
      | .names found => .ok found
      | _ => .error .httpError
  | _, .workspaces _ _ _ _ =>
      match reply with
      | .page page => .ok page
      | _ => .error .httpError
  | _, .workspace _ _ | _, .workspaceByOwnerAndName _ _ _ =>
      match reply with
      | .workspace found => .ok found
      | _ => .error .httpError
  | _, .createWorkspace _ _ _ _ _ =>
      match reply with
      | .workspace (some made) => .ok made
      | _ => .error .httpError
  | _, .workspaceBuildParameters _ _ =>
      match reply with
      | .parameters parameters => .ok parameters
      | _ => .error .httpError
  | _, .createWorkspaceStartBuild _ _ _ | _, .createWorkspaceStopBuild _ _
  | _, .createWorkspaceDeleteBuild _ _ | _, .workspaceBuild _ _ =>
      match reply with
      | .build build => .ok build
      | _ => .error .httpError
  | _, .defaultOrganizationId _ | _, .uploadTemplateArchive _ _ =>
      match reply with
      | .identifier id => .ok id
      | _ => .error .httpError
  | _, .template _ _ | _, .templateByName _ _ _ =>
      match reply with
      | .template found => .ok found
      | _ => .error .httpError
  | _, .createTemplate _ _ _ _ _ =>
      match reply with
      | .template (some made) => .ok made
      | _ => .error .httpError
  | _, .templateVersionByName _ _ _ _ | _, .templateVersionForRecovery _ _ =>
      match reply with
      | .version found => .ok found
      | _ => .error .httpError
  | _, .templateVersion _ _ | _, .createTemplateVersion _ _ _ _ _ _ =>
      match reply with
      | .version (some found) => .ok found
      | _ => .error .httpError

def Call.answer (reply : Reply) {β : Type} (c : Call β) : Except WorkerError β :=
  match reply with
  | .fail error => .error error
  | reply => c.read reply

end CoderManager
