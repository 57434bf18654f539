import CoderManager.Discipline.Rules

/-!
# The build a creation waits on

A workspace that is found is adopted with its latest build, unless the build is
over or carries other parameters. No parameters are read of a stop or a delete
build, and what was not read counts as the empty list.
-/
namespace CoderManager
open Programs

namespace Tasks

def foundOrCreated (snapshot : WorkspaceRemoteSnapshot) : Option CoderWorkspace → Worker CoderWorkspace
  | some remote => pure remote
  | none => request (.createWorkspace snapshot.instanceUrl snapshot.username snapshot.name
      snapshot.coderTemplateId snapshot.parameters)

def creationTarget (snapshot : WorkspaceRemoteSnapshot) (found : Option CoderWorkspace) :
    Worker (CoderWorkspace × CoderWorkspaceBuild) := do
  let remote ← foundOrCreated snapshot found
  requireMatchingTemplate remote snapshot
  let build ← creationBuild snapshot remote found.isNone
  return (remote, build)

def awaitCreation (fuel : Nat) (claim : ExecutionClaim) (snapshot : WorkspaceRemoteSnapshot)
    (target : CoderWorkspace × CoderWorkspaceBuild) : Worker TaskStatus := do
  if ← transact (.storeWorkspaceRemoteIds claim target.1.id target.2.id) then
    let build ← waitWorkspaceBuild snapshot.instanceUrl .running (workspaceHeartbeat claim) fuel
      target.2
    completeWorkspace claim (some target.1.id) (some build.id) true
  else return .noop

theorem createWorkspace_eq (fuel : Nat) (claim : ExecutionClaim) :
    createWorkspace fuel claim = (do
      let workspaceId ← liftExcept claim.requiredResourceId
      let snapshot ← query (.workspaceRemoteSnapshot workspaceId)
      request (.authenticatePreparedAdmin snapshot.instanceUrl snapshot.password)
      let found ← findRemoteWorkspace snapshot
      let target ← creationTarget snapshot found
      awaitCreation fuel claim snapshot target) := by
  unfold createWorkspace
  refine congrArg (_ >>= ·) (funext fun workspaceId => ?_)
  refine congrArg (_ >>= ·) (funext fun snapshot => ?_)
  refine congrArg (_ >>= ·) (funext fun _ => ?_)
  refine congrArg (_ >>= ·) (funext fun found => ?_)
  simp only [creationTarget, Prog.then_assoc]
  cases found <;> rfl

/-- The parameters read of a found workspace: those of its latest build if that
starts it, else none. -/
def currentParameters (snapshot : WorkspaceRemoteSnapshot) (remote : CoderWorkspace) :
    Worker (List (String × String)) :=
  if remote.latestBuildTransition = .start then
    request (.workspaceBuildParameters snapshot.instanceUrl remote.latestBuildId)
  else pure []

/-- The latest build is kept, or the workspace is started again. -/
def adoptBuild (snapshot : WorkspaceRemoteSnapshot) (remote : CoderWorkspace)
    (current : List (String × String)) : Worker CoderWorkspaceBuild :=
  if current ≠ snapshot.parameters ∨ restartStatuses.contains remote.status then
    request (.createWorkspaceStartBuild snapshot.instanceUrl remote.id snapshot.parameters)
  else pure remote.latestBuild

theorem creationBuild_found (snapshot : WorkspaceRemoteSnapshot) (remote : CoderWorkspace) :
    creationBuild snapshot remote false = (do
      let current ← currentParameters snapshot remote
      adoptBuild snapshot remote current) := by
  simp only [creationBuild, currentParameters, Bool.false_eq_true, if_false]
  by_cases hstart : remote.latestBuildTransition = .start
  · rw [if_pos (show remote.latestBuild.transition = .start from hstart), if_pos hstart]
    rfl
  · rw [if_neg (show ¬remote.latestBuild.transition = .start from hstart), if_neg hstart]
    rfl

end Tasks

/-- Each build has the rich parameters that a request for them answers with. A
build made by one of the two requests is a start build with the parameters the
request gave. -/
structure Carries (rich : UUID → List (String × String)) (run : List WorkerEvent) : Prop where
  read : ∀ url buildId parameters,
    (⟨.call (.workspaceBuildParameters url buildId), .ok parameters⟩ : WorkerEvent) ∈ run →
      parameters = rich buildId
  created : ∀ url owner name templateId parameters remote,
    (⟨.call (.createWorkspace url owner name templateId parameters), .ok remote⟩ : WorkerEvent) ∈ run →
      remote.latestBuildTransition = .start ∧ rich remote.latestBuildId = parameters
  started : ∀ url workspaceId parameters build,
    (⟨.call (.createWorkspaceStartBuild url workspaceId parameters), .ok build⟩ : WorkerEvent) ∈ run →
      build.transition = .start ∧ rich build.id = parameters

def Fits (rich : UUID → List (String × String)) (snapshot : WorkspaceRemoteSnapshot)
    (build : CoderWorkspaceBuild) : Prop :=
  build.transition = .start ∧ rich build.id = snapshot.parameters

section Target
variable {rich : UUID → List (String × String)} {snapshot : WorkspaceRemoteSnapshot}
  {run : List WorkerEvent} {remote : CoderWorkspace} {build : CoderWorkspaceBuild}

theorem Carries.part {part : List WorkerEvent} (carries : Carries rich run)
    (h : ∀ e ∈ part, e ∈ run) : Carries rich part where
  read _ _ _ hmem := carries.read _ _ _ (h _ hmem)
  created _ _ _ _ _ _ hmem := carries.created _ _ _ _ _ _ (h _ hmem)
  started _ _ _ _ hmem := carries.started _ _ _ _ (h _ hmem)

/-- A start build is requested, or the latest build is kept: then no parameters
but those of the snapshot were read of it. -/
theorem adopts (carries : Carries rich run)
    (completed : Completes (Tasks.creationBuild snapshot remote false) run build) :
    Fits rich snapshot build ∨
      (build = remote.latestBuild ∧ remote.latestBuildTransition ≠ .start ∧
        snapshot.parameters = [] ∧ remote.status ∉ Tasks.restartStatuses) := by
  rw [Tasks.creationBuild_found] at completed
  obtain ⟨first, rest, current, rfl, hread, hrest⟩ := completes_bind.mp completed
  unfold Tasks.currentParameters at hread
  unfold Tasks.adoptBuild at hrest
  by_cases hagain : current ≠ snapshot.parameters ∨ Tasks.restartStatuses.contains remote.status
  · rw [if_pos hagain] at hrest
    have hrun := completes_perform.mp hrest
    have hstarted := carries.started snapshot.instanceUrl remote.id snapshot.parameters build
      (by rw [hrun]; exact List.mem_append_right _ List.mem_cons_self)
    exact .inl hstarted
  · rw [if_neg hagain] at hrest
    obtain ⟨-, rfl⟩ := completes_pure.mp hrest
    obtain ⟨hcurrent, hstatus⟩ := not_or.mp hagain
    have hcurrent : current = snapshot.parameters := not_not.mp hcurrent
    by_cases hstart : remote.latestBuildTransition = .start
    · rw [if_pos hstart] at hread
      have hrun := completes_perform.mp hread
      have hrich := carries.read snapshot.instanceUrl remote.latestBuildId current
        (by rw [hrun]; exact List.mem_append_left _ List.mem_cons_self)
      exact .inl ⟨hstart, hrich.symm.trans hcurrent⟩
    · rw [if_neg hstart] at hread
      obtain ⟨-, rfl⟩ := completes_pure.mp hread
      refine .inr ⟨rfl, hstart, hcurrent.symm, ?_⟩
      simpa using hstatus

theorem restarts (completed : Completes (Tasks.creationBuild snapshot remote false) run build)
    (turned : remote.latestBuildTransition ≠ .start) (bare : snapshot.parameters = [])
    (kept : remote.status ∉ Tasks.restartStatuses) : build.transition ≠ .start := by
  have hkept : ¬(([] : List (String × String)) ≠ snapshot.parameters ∨
      Tasks.restartStatuses.contains remote.status) := by
    simp [bare, kept]
  rw [Tasks.creationBuild_found] at completed
  obtain ⟨first, rest, current, rfl, hread, hrest⟩ := completes_bind.mp completed
  unfold Tasks.currentParameters at hread
  rw [if_neg turned] at hread
  obtain ⟨-, rfl⟩ := completes_pure.mp hread
  unfold Tasks.adoptBuild at hrest
  rw [if_neg hkept] at hrest
  obtain ⟨-, rfl⟩ := completes_pure.mp hrest
  exact turned

/-- The found workspace, if there is one, does not leave a creation without
parameters on a build that stops or deletes it. -/
def Restartable (snapshot : WorkspaceRemoteSnapshot) (found : Option CoderWorkspace) : Prop :=
  ∀ w, found = some w → w.latestBuildTransition = .start ∨ snapshot.parameters ≠ [] ∨
    w.status ∈ Tasks.restartStatuses

variable {found : Option CoderWorkspace}

theorem creationTarget_fits (carries : Carries rich run)
    (completed : Completes (Tasks.creationTarget snapshot found) run (remote, build)) :
    Fits rich snapshot build ↔ Restartable snapshot found := by
  obtain ⟨first, rest, target, rfl, hfind, hrest⟩ := completes_bind.mp completed
  obtain ⟨checks, rest, ⟨⟩, rfl, hcheck, hrest⟩ := completes_bind.mp hrest
  obtain ⟨builds, rest, target', rfl, hbuild, hrest⟩ := completes_bind.mp hrest
  obtain ⟨rfl, heq⟩ := completes_pure.mp hrest
  obtain ⟨rfl, rfl⟩ := Prod.mk.inj heq
  cases found with
  | none =>
      have hrun := completes_perform.mp hfind
      obtain ⟨-, rfl⟩ := completes_pure.mp hbuild
      have hmade := carries.created snapshot.instanceUrl snapshot.username snapshot.name
        snapshot.coderTemplateId snapshot.parameters target
        (by rw [hrun]; exact List.mem_append_left _ List.mem_cons_self)
      exact iff_of_true hmade fun w hw => by cases hw
  | some w =>
      obtain ⟨rfl, rfl⟩ := completes_pure.mp hfind
      have hcarries : Carries rich builds := carries.part fun e he => by simp [he]
      constructor
      · rintro hfits w' ⟨⟩
        by_contra hbad
        obtain ⟨hover, hbare, hkept⟩ := by simpa only [not_or, not_not] using hbad
        exact restarts hbuild hover hbare hkept hfits.1
      · intro hcond
        rcases adopts hcarries hbuild with hfits | ⟨-, hover, hbare, hkept⟩
        · exact hfits
        · rcases hcond w rfl with hstart | hsome | hstatus
          · exact absurd hstart hover
          · exact absurd hbare hsome
          · exact absurd hstatus hkept

end Target

/-- A creation waits on a start build with the parameters of the snapshot unless
it finds a workspace whose latest build stops or deletes it, is not over, and the
snapshot has no parameters. -/
theorem creation_waits_on_start (fuel : Nat) (claim : ExecutionClaim) :
    (Tasks.createWorkspace fuel claim = (do
      let workspaceId ← liftExcept claim.requiredResourceId
      let snapshot ← query (.workspaceRemoteSnapshot workspaceId)
      request (.authenticatePreparedAdmin snapshot.instanceUrl snapshot.password)
      let found ← findRemoteWorkspace snapshot
      let target ← Tasks.creationTarget snapshot found
      Tasks.awaitCreation fuel claim snapshot target)) ∧
      ∀ snapshot found rich run remote build, Carries rich run →
        Completes (Tasks.creationTarget snapshot found) run (remote, build) →
          (Fits rich snapshot build ↔ Restartable snapshot found) :=
  ⟨Tasks.createWorkspace_eq fuel claim, fun _ _ _ _ _ _ carries completed =>
    creationTarget_fits carries completed⟩

def bareSnapshot : WorkspaceRemoteSnapshot where
  id := 1
  name := "dev"
  username := "ada"
  instanceUrl := 2
  password := "secret"
  coderTemplateId := 5
  coderWorkspaceId := none
  coderWorkspaceBuildId := none
  parameters := []
  parametersRevision := 0
  appliedParametersRevision := none

/-- A workspace that runs with two cores, found by a creation that wants four. -/
def runningWorkspace : CoderWorkspace where
  id := 7
  status := .running
  latestBuildId := 8
  latestBuildTransition := .start
  name := "dev"
  templateId := some 5

def fourCores : WorkspaceRemoteSnapshot := { bareSnapshot with parameters := [("cores", "4")] }

def restarting : List WorkerEvent :=
  [⟨.call (.workspaceBuildParameters 2 8), .ok [("cores", "2")]⟩,
    ⟨.call (.createWorkspaceStartBuild 2 7 [("cores", "4")]), .ok ⟨9, .pending, .start⟩⟩]

def Op.buildRequest : {β : Type} → Op β → Nat
  | _, .call (.workspaceBuildParameters _ _) => 1
  | _, .call (.createWorkspace _ _ _ _ _) => 2
  | _, .call (.createWorkspaceStartBuild _ _ _) => 3
  | _, _ => 0

theorem carries_restarting : Carries (fun id => if id = 8 then [("cores", "2")] else [("cores", "4")])
    restarting := by
  have apart : ∀ {e e' : WorkerEvent}, e = e' → e.op.buildRequest = e'.op.buildRequest :=
    fun h => h ▸ rfl
  constructor
  · intro url buildId parameters hmem
    rcases List.mem_cons.mp hmem with h | h
    · cases h
      rfl
    · cases apart (List.mem_singleton.mp h)
  · intro url owner name templateId parameters remote hmem
    rcases List.mem_cons.mp hmem with h | h
    · cases apart h
    · cases apart (List.mem_singleton.mp h)
  · intro url workspaceId parameters build hmem
    rcases List.mem_cons.mp hmem with h | h
    · cases apart h
    · cases List.mem_singleton.mp h
      exact ⟨rfl, rfl⟩

/-- It is the new build that the creation waits on. -/
theorem creation_waits_on_restart :
    Fits (fun id => if id = 8 then [("cores", "2")] else [("cores", "4")]) fourCores
      ⟨9, .pending, .start⟩ := by
  have hrun : Completes (Tasks.creationTarget fourCores (some runningWorkspace)) restarting
      (runningWorkspace, ⟨9, .pending, .start⟩) :=
    Exists.intro _ (And.intro rfl (Exists.intro _ (And.intro rfl rfl)))
  refine ((creation_waits_on_start 0 ⟨1, StepName.workspaceCreateStep01.task, .workspaceCreateStep01,
    1, some .workspace, some 1⟩).2 _ _ _ _ _ _ carries_restarting hrun).mpr ?_
  rintro w ⟨⟩
  exact .inl rfl

/-- A workspace that is being stopped, found by a creation without parameters. -/
def stoppingWorkspace : CoderWorkspace where
  id := 7
  status := .stopping
  latestBuildId := 8
  latestBuildTransition := .stop
  name := "dev"
  templateId := some 5

theorem creation_waits_on_stop :
    ¬∀ snapshot found rich run remote build, Carries rich run →
      Completes (Tasks.creationTarget snapshot found) run (remote, build) →
        Fits rich snapshot build := by
  intro hall
  have hcarries : Carries (fun _ => []) [] := ⟨by simp, by simp, by simp⟩
  have hrun : Completes (Tasks.creationTarget bareSnapshot (some stoppingWorkspace)) []
      (stoppingWorkspace, stoppingWorkspace.latestBuild) := rfl
  have hfits := hall _ _ _ _ _ _ hcarries hrun
  exact absurd hfits.1 (by decide)

end CoderManager
