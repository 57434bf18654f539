import CoderManager.Domains.Remote
import CoderManager.Lib.Program

/-!
# Coder services

The account and workspace loops run against one Coder deployment. `fuel` bounds
the rounds of a polling loop: a worker that has not returned by then is treated
as never acting again, so every finite stretch of a real run is covered.
-/
namespace CoderManager
open Programs

/-- One atomic operation of a worker. -/
inductive Op : Type → Type where
  | query {β : Type} (q : Query β) : Op β
  | transaction {β : Type} (t : Transaction β) : Op β
  | call {β : Type} (c : Call β) : Op β

abbrev Worker := Prog Op WorkerError

abbrev WorkerEvent := Event Op WorkerError

def query {β : Type} (q : Query β) : Worker β := .perform (.query q)

def transact {β : Type} (t : Transaction β) : Worker β := .perform (.transaction t)

def request {β : Type} (c : Call β) : Worker β := .perform (.call c)

def forEach {α : Type} : List α → (α → Worker Unit) → Worker Unit
  | [], _ => pure ()
  | a :: as, f => do
      f a
      forEach as f

def foldEach {α σ : Type} : List α → σ → (σ → α → Worker σ) → Worker σ
  | [], s, _ => pure s
  | a :: as, s, f => do
      foldEach as (← f s a) f

namespace Coder

def workspacePageSize : Nat := 100

def observedWorkspaceStatuses : List BuildStatus := [.running, .starting, .stopping]

def terminalWorkspaceStopFailures : List BuildStatus :=
  [.failed, .canceled, .canceling, .deleting, .deleted]

def activeWorkspaceBuildStatuses : List BuildStatus :=
  [.pending, .starting, .stopping, .canceling, .deleting]

def terminalWorkspaceDeleteFailures : List BuildStatus := [.failed, .canceled]

/-- `set.add`. -/
def addBuild (builds : List UUID) (id : UUID) : List UUID :=
  if builds.contains id then builds else builds ++ [id]

/-- `found[str(workspace.id)] = workspace`. -/
def upsert (found : List CoderWorkspace) (w : CoderWorkspace) : List CoderWorkspace :=
  if found.any fun f => f.id == w.id then found.map fun f => if f.id = w.id then w else f
  else found ++ [w]

def sortedById (found : List CoderWorkspace) : List CoderWorkspace :=
  found.insertionSort fun a b => a.id ≤ b.id

def requireBeforeDeadline (message : String) : Worker Unit := do
  if !(← request .beforeDeadline) then throw (.coderRequestError message)

def bootstrapAdminAccount (url : InstanceUrl) (password : String) : Worker Unit := do
  if ← request (.hasFirstUser url) then request (.authenticatePreparedAdmin url password)
  else request (.createFirstUser url password)

def cleanupUserAccounts (url : InstanceUrl) (password : String) (expectedUsernames : List String)
    (heartbeat : Worker Unit) : Worker (List String) := do
  if !(← request (.hasFirstUser url)) then request (.createFirstUser url password)
  request (.authenticatePreparedAdmin url password)
  heartbeat
  let usernames ← request (.usernames url)
  let orphaned := (usernames.dedup.filter fun u => !expectedUsernames.contains u).insertionSort (· ≤ ·)
  forEach orphaned fun username => do
    heartbeat
    request (.deleteUser url username)
  return orphaned

def activePages (url : InstanceUrl) (heartbeat : Worker Unit) (status : BuildStatus) :
    Nat → Nat → List CoderWorkspace → Worker (List CoderWorkspace)
  | 0, _, _ => .halt
  | fuel + 1, offset, found => do
      heartbeat
      let page ← request (.workspaces url (some status) offset workspacePageSize)
      let found := page.items.foldl upsert found
      let offset := offset + page.items.length
      if page.count ≤ offset then return found
      if page.items.isEmpty then
        throw (.coderRequestError "Coder workspace pagination did not advance")
      activePages url heartbeat status fuel offset found

def activeWorkspaces (url : InstanceUrl) (heartbeat : Worker Unit) (fuel : Nat) :
    Worker (List CoderWorkspace) := do
  let found ← foldEach observedWorkspaceStatuses [] fun found status =>
    activePages url heartbeat status fuel 0 found
  return sortedById found

def pollStopBuilds (url : InstanceUrl) (pending : List UUID) : Worker (List UUID) :=
  foldEach pending pending fun pending buildId => do
    let build ← request (.workspaceBuild url buildId)
    if build.transition ≠ .stop then
      throw (.coderRequestError "Coder workspace stop returned an unexpected transition")
    if build.status = .stopped then return pending.filter (· ≠ buildId)
    if terminalWorkspaceStopFailures.contains build.status then
      throw (.coderRequestError "Coder workspace stop failed")
    return pending

def waitWorkspaceBuilds (url : InstanceUrl) (heartbeat : Worker Unit) :
    Nat → List UUID → Worker Unit
  | 0, _ => .halt
  | fuel + 1, pending => do
      if pending.isEmpty then return ()
      requireBeforeDeadline "Coder workspace stop timed out"
      heartbeat
      waitWorkspaceBuilds url heartbeat fuel (← pollStopBuilds url pending)

def stopWorkspace (url : InstanceUrl) (heartbeat : Worker Unit) (pending : List UUID)
    (workspace : CoderWorkspace) : Worker (List UUID) := do
  heartbeat
  if workspace.status = .stopping then return addBuild pending workspace.latestBuildId
  let build ← request (.createWorkspaceStopBuild url workspace.id)
  if build.transition ≠ .stop then
    throw (.coderRequestError "Coder workspace stop returned an unexpected transition")
  return if build.status = .stopped then pending else addBuild pending build.id

def stopRounds (url : InstanceUrl) (heartbeat : Worker Unit) : Nat → List UUID → Worker (List UUID)
  | 0, _ => .halt
  | fuel + 1, stoppedIds => do
      requireBeforeDeadline "Coder workspace stop timed out"
      let active ← activeWorkspaces url heartbeat fuel
      if active.isEmpty then return stoppedIds
      let pending ← foldEach active [] (stopWorkspace url heartbeat)
      waitWorkspaceBuilds url heartbeat fuel pending
      stopRounds url heartbeat fuel (stoppedIds ++ active.map fun w => w.id)

def stopActiveWorkspaces (url : InstanceUrl) (password : String) (heartbeat : Worker Unit)
    (fuel : Nat) : Worker (List UUID) := do
  request (.authenticatePreparedAdmin url password)
  stopRounds url heartbeat fuel []

structure WorkspaceStopSubmissions where
  submittedIds : List UUID
  alreadyStoppingIds : List UUID
  deriving DecidableEq, Repr

def submitActiveWorkspaceStops (url : InstanceUrl) (password : String) (fuel : Nat) :
    Worker WorkspaceStopSubmissions := do
  request (.authenticatePreparedAdmin url password)
  let active ← activeWorkspaces url (pure ()) fuel
  let (submissions, failures) ← foldEach active
    ((⟨[], []⟩, []) : WorkspaceStopSubmissions × List UUID) fun (submissions, failures) workspace => do
      if workspace.status = .stopping then
        return ({ submissions with
          alreadyStoppingIds := submissions.alreadyStoppingIds ++ [workspace.id] }, failures)
      let accepted ← tryCatch
        (do
          let build ← request (.createWorkspaceStopBuild url workspace.id)
          return build.transition == .stop)
        (fun _ => return false)
      if accepted then
        return ({ submissions with submittedIds := submissions.submittedIds ++ [workspace.id] },
          failures)
      else return (submissions, failures ++ [workspace.id])
  if failures.isEmpty then return submissions
  else throw (.coderRequestError
    ("Coder workspace stop submission failed for: " ++ ", ".intercalate (failures.map toString)))

/-- `_wait_for_coder`: authentication is tried until it succeeds or time is up. -/
def waitForCoder (url : InstanceUrl) (password : String) (heartbeat : Worker Unit) :
    Nat → Worker Unit
  | 0 => .halt
  | fuel + 1 => do
      requireBeforeDeadline "Coder workspace deletion timed out"
      heartbeat
      let ready ← tryCatch
        (do
          request (.authenticatePreparedAdmin url password)
          return true)
        (fun error => match error with
          | .coderRequestError _ | .httpError => return false
          | error => throw error)
      if ready then return ()
      requireBeforeDeadline "Coder workspace deletion timed out"
      waitForCoder url password heartbeat fuel

def allPages (url : InstanceUrl) (heartbeat : Worker Unit) :
    Nat → Option Nat → Nat → List CoderWorkspace → Worker (List CoderWorkspace)
  | 0, _, _, _ => .halt
  | fuel + 1, expectedCount, offset, found => do
      heartbeat
      let page ← request (.workspaces url none offset workspacePageSize)
      if expectedCount.any fun count => count ≠ page.count then
        throw (.coderRequestError "Coder workspace count changed during pagination")
      let ids := (found ++ page.items).map fun w => w.id
      if ids.dedup.length ≠ ids.length then
        throw (.coderRequestError "Coder workspace pagination returned a duplicate workspace")
      let found := found ++ page.items
      let offset := offset + page.items.length
      if page.count ≤ offset then
        if page.count ≠ found.length then
          throw (.coderRequestError "Coder workspace pagination returned an incomplete snapshot")
        return sortedById found
      if page.items.isEmpty then
        throw (.coderRequestError "Coder workspace pagination did not advance")
      allPages url heartbeat fuel (some page.count) offset found

def allWorkspaces (url : InstanceUrl) (heartbeat : Worker Unit) (fuel : Nat) :
    Worker (List CoderWorkspace) :=
  allPages url heartbeat fuel none 0 []

def templateWorkspaces (url : InstanceUrl) (templateId : UUID) (heartbeat : Worker Unit)
    (fuel : Nat) : Worker (List CoderWorkspace) := do
  let workspaces ← allWorkspaces url heartbeat fuel
  if workspaces.any fun w => w.templateId.isNone then
    throw (.coderRequestError "Coder workspace page did not expose template identities")
  return workspaces.filter fun w => w.templateId = some templateId

/-- One workspace in a round of a deletion: the blocking and the delete builds. -/
def deleteWorkspace (url : InstanceUrl) (unexpected failed : String) (heartbeat : Worker Unit)
    (builds : List UUID × List UUID) (workspace : CoderWorkspace) :
    Worker (List UUID × List UUID) := do
  heartbeat
  if activeWorkspaceBuildStatuses.contains workspace.status then
    if workspace.latestBuildTransition = .delete then
      return (builds.1, addBuild builds.2 workspace.latestBuildId)
    else return (addBuild builds.1 workspace.latestBuildId, builds.2)
  let build ← request (.createWorkspaceDeleteBuild url workspace.id)
  if build.transition ≠ .delete then throw (.coderRequestError unexpected)
  if terminalWorkspaceDeleteFailures.contains build.status then throw (.coderRequestError failed)
  return if build.status = .deleted then builds else (builds.1, addBuild builds.2 build.id)

def pollDeletions (url : InstanceUrl) (blocking deleting : List UUID) :
    Worker (List UUID × List UUID) := do
  let blocking ← foldEach blocking blocking fun blocking buildId => do
    let build ← request (.workspaceBuild url buildId)
    return if activeWorkspaceBuildStatuses.contains build.status then blocking
      else blocking.filter (· ≠ buildId)
  let deleting ← foldEach deleting deleting fun deleting buildId => do
    let build ← request (.workspaceBuild url buildId)
    if build.transition ≠ .delete then
      throw (.coderRequestError "Coder workspace deletion returned an unexpected transition")
    if build.status = .deleted then return deleting.filter (· ≠ buildId)
    if terminalWorkspaceDeleteFailures.contains build.status then
      throw (.coderRequestError "Coder workspace deletion failed")
    return deleting
  return (blocking, deleting)

def waitWorkspaceDeletions (url : InstanceUrl) (heartbeat : Worker Unit) :
    Nat → List UUID × List UUID → Worker Unit
  | 0, _ => .halt
  | fuel + 1, (blocking, deleting) => do
      if blocking.isEmpty && deleting.isEmpty then return ()
      requireBeforeDeadline "Coder workspace deletion timed out"
      heartbeat
      waitWorkspaceDeletions url heartbeat fuel (← pollDeletions url blocking deleting)

/-- The rounds shared by the two deletions, which differ in the workspaces they
look at and in their messages. -/
def deleteRounds (url : InstanceUrl) (scan : Nat → Worker (List CoderWorkspace))
    (timedOut unexpected failed : String) (heartbeat : Worker Unit) :
    Nat → List UUID → Worker (List UUID)
  | 0, _ => .halt
  | fuel + 1, deletedIds => do
      requireBeforeDeadline timedOut
      let workspaces ← scan fuel
      if workspaces.isEmpty then return deletedIds.insertionSort (· ≤ ·)
      let builds ← foldEach workspaces ([], []) (deleteWorkspace url unexpected failed heartbeat)
      waitWorkspaceDeletions url heartbeat fuel builds
      deleteRounds url scan timedOut unexpected failed heartbeat fuel
        (workspaces.foldl (fun ids w => addBuild ids w.id) deletedIds)

def deleteAllWorkspaces (url : InstanceUrl) (password : String) (heartbeat : Worker Unit)
    (fuel : Nat) : Worker (List UUID) := do
  waitForCoder url password heartbeat fuel
  deleteRounds url (allWorkspaces url heartbeat) "Coder workspace deletion timed out"
    "Coder workspace deletion returned an unexpected transition" "Coder workspace deletion failed"
    heartbeat fuel []

def deleteTemplateWorkspaces (url : InstanceUrl) (password : String) (templateId : UUID)
    (heartbeat : Worker Unit) (fuel : Nat) : Worker (List UUID) := do
  waitForCoder url password heartbeat fuel
  deleteRounds url (templateWorkspaces url templateId heartbeat)
    "Coder template workspace deletion timed out"
    "Coder template workspace deletion returned an unexpected transition"
    "Coder template workspace deletion failed" heartbeat fuel []

end Coder
end CoderManager
