import CoderManager.Refinement.Requests

/-!
# Committed transactions

`Committed` lists what a worker's transaction may commit, with everything it
checked and what it answers. A transaction of a stale claim commits nothing.
-/
namespace CoderManager
open Tables Leases

namespace Store

theorem claimedInstance_eq_some {s : Store} {resourceId : Option UUID} {id : UUID} {i : Instance} :
    s.claimedInstance resourceId = some (id, i) ↔
      resourceId = some id ∧ s.instances.lookup id = some i := by
  unfold claimedInstance
  cases resourceId with
  | none => simp
  | some id' =>
      cases hrow : s.instances.lookup id' with
      | none =>
          simp only [Option.bind_eq_bind, Option.bind_some, hrow, Option.bind_none, Option.some.injEq,
            reduceCtorEq, false_iff, not_and]
          rintro rfl
          simp [hrow]
      | some i' =>
          simp only [Option.bind_eq_bind, Option.bind_some, hrow, Option.pure_def, Option.some.injEq,
            Prod.mk.injEq]
          constructor
          · rintro ⟨rfl, rfl⟩
            exact ⟨rfl, hrow⟩
          · rintro ⟨rfl, h⟩
            rw [hrow, Option.some.injEq] at h
            exact ⟨rfl, h⟩

theorem ownedInstance_eq_some {s : Store} {job : JobExecution} {id : UUID} {i : Instance} :
    s.ownedInstance job = some (id, i) ↔ job.resourceType = some .instance ∧
      job.resourceId = some id ∧ s.instances.lookup id = some i := by
  unfold ownedInstance
  split
  · rename_i h
    simp [h, claimedInstance_eq_some]
  · rename_i h
    simp [h]

end Store

/-- What a `mutate` callback leaves behind. -/
inductive Mutated (s : Store) (job : JobExecution) : Mutation → Store → Prop
  | none : Mutated s job .none s
  | storeApplicationName {name : String} {missing : WorkerError} {id : UUID} {i : Instance}
      (row : s.ownedInstance job = some (id, i)) :
      Mutated s job (.storeApplicationName name missing) { s with
        instances := s.instances.modify id fun _ =>
          { i with argocdApplicationName := some name, state := .started } }
  | promotePassword {id : UUID} {i : Instance} {password : Sealed}
      (row : s.ownedInstance job = some (id, i))
      (promoted : i.passwordEnc = some password ∨
        (i.passwordEnc = Option.none ∧ i.passwordCandidateEnc = some password)) :
      Mutated s job .promotePassword { s with
        instances := s.instances.modify id fun _ =>
          { i with passwordEnc := some password, passwordCandidateEnc := Option.none } }
  | markStopped {id : UUID} {i : Instance} (row : s.ownedInstance job = some (id, i)) :
      Mutated s job .markStopped { s with
        instances := s.instances.modify id fun _ => { i with state := .stopped } }
  | markCreated {id : UUID} (type : job.resourceType = some .templateAssignment)
      (resource : job.resourceId = some id) :
      Mutated s job .markCreated
        (s.modifyLifecycle .templateAssignment id fun r => { r with action := .created })
  | failMembers {memberIds : List UUID} :
      Mutated s job (.failMembers memberIds) (s.releaseMembers memberIds .error)
  | deferMembers {memberIds : List UUID} :
      Mutated s job (.deferMembers memberIds) (s.releaseMembers memberIds .pending)
  | convergeWorkspace {workspaceId buildId : Option UUID} {applyParameters : Bool} {id : UUID}
      {f : Workspace → Workspace} (type : job.resourceType = some .workspace)
      (resource : job.resourceId = some id)
      (same : ∀ w, (f w).toLifecycle = w.toLifecycle ∧ (f w).instanceId = w.instanceId ∧
        (f w).templateId = w.templateId ∧ (f w).memberId = w.memberId ∧
        (f w).imageId = w.imageId ∧ (f w).modules = w.modules)
      (stored : f = fun w => { w with
        coderWorkspaceId := workspaceId <|> w.coderWorkspaceId
        coderWorkspaceBuildId := buildId <|> w.coderWorkspaceBuildId
        appliedParametersRevision :=
          if applyParameters then some w.parametersRevision else w.appliedParametersRevision }) :
      Mutated s job (.convergeWorkspace workspaceId buildId applyParameters)
        { s with workspaces := s.workspaces.modify id f }
  | keepWorkspace {workspaceId buildId : Option UUID} {applyParameters : Bool}
      (type : job.resourceType ≠ some .workspace ∨ job.resourceId = Option.none) :
      Mutated s job (.convergeWorkspace workspaceId buildId applyParameters) s

theorem Mutation.onInstance_ok {job : JobExecution} {s s' : Store} {missing : WorkerError}
    {f : Instance → Except WorkerError Instance}
    (h : Mutation.onInstance job s missing f = .ok s') :
    ∃ id i i', s.ownedInstance job = some (id, i) ∧ f i = .ok i' ∧
      s' = { s with instances := s.instances.modify id fun _ => i' } := by
  simp only [Mutation.onInstance, bind_eq_ok, pure_eq_ok, found_eq_ok] at h
  obtain ⟨⟨id, i⟩, hrow, i', hf, rfl⟩ := h
  exact ⟨id, i, i', hrow, hf, rfl⟩

theorem Mutation.mutated {m : Mutation} {job : JobExecution} {s s' : Store}
    (h : m.apply job s = .ok s') : Mutated s job m s' := by
  cases m with
  | none =>
      cases h
      exact .none
  | storeApplicationName name missing =>
      simp only [Mutation.apply] at h
      obtain ⟨id, i, i', hrow, hf, rfl⟩ := Mutation.onInstance_ok h
      cases hf
      exact .storeApplicationName hrow
  | promotePassword =>
      simp only [Mutation.apply] at h
      obtain ⟨id, i, i', hrow, hf, rfl⟩ := Mutation.onInstance_ok h
      cases hp : i.passwordEnc with
      | some password =>
          simp only [Mutation.promote, hp, Except.ok.injEq] at hf
          subst hf
          exact .promotePassword hrow (.inl hp)
      | none =>
          cases hc : i.passwordCandidateEnc with
          | some candidate =>
              simp only [Mutation.promote, hp, hc, Except.ok.injEq] at hf
              subst hf
              exact .promotePassword hrow (.inr ⟨hp, hc⟩)
          | none => simp [Mutation.promote, hp, hc] at hf
  | markStopped =>
      simp only [Mutation.apply] at h
      obtain ⟨id, i, i', hrow, hf, rfl⟩ := Mutation.onInstance_ok h
      cases hf
      exact .markStopped hrow
  | markCreated =>
      simp only [Mutation.apply] at h
      split at h
      · rename_i id htype hid
        cases h
        exact .markCreated htype hid
      · cases h
  | failMembers ids =>
      cases h
      exact .failMembers
  | deferMembers ids =>
      cases h
      exact .deferMembers
  | convergeWorkspace workspaceId buildId applyParameters =>
      simp only [Mutation.apply] at h
      split at h
      · rename_i id htype hid
        cases h
        exact .convergeWorkspace htype hid (fun w => ⟨rfl, rfl, rfl, rfl, rfl, rfl⟩) rfl
      · rename_i hno
        cases h
        refine .keepWorkspace ?_
        by_cases htype : job.resourceType = some .workspace
        · refine .inr ?_
          cases hid : job.resourceId with
          | none => rfl
          | some id => exact absurd hid (hno id htype)
        · exact .inl htype

/-- What a transaction answers and commits. -/
inductive Committed (s : Store) : {β : Type} → Transaction β → β → Store → Prop
  | claimRefused {jobId : UUID} {task : TaskName} :
      Committed s (.claimExecution jobId task) none s
  | claimExecution {jobId : UUID} {job : JobExecution}
      (row : s.jobs.lookup jobId = some job)
      (idle : job.status = .pending ∨ job.status = .error)
      (current : Matches catalogue s.ledger jobId job.lease) :
      Committed s (.claimExecution jobId job.taskName)
        (some ⟨jobId, job.taskName, job.step, job.attempt + 1, job.resourceType, job.resourceId⟩)
        ((s.modifyJob jobId fun _ => { job with
          status := .running, attempt := job.attempt + 1, claimedAt := some s.now }).modifyResource
          job fun r => { r with status := .running })
  | heartbeatStale {claim : ExecutionClaim} (stale : s.ownedExecution claim = none) :
      Committed s (.heartbeatExecution claim) false s
  | heartbeatExecution {claim : ExecutionClaim} {job : JobExecution}
      (owned : s.ownedExecution claim = some job) :
      Committed s (.heartbeatExecution claim) true
        (s.modifyJob claim.jobId fun job => { job with claimedAt := some s.now })
  | advanceStale {claim : ExecutionClaim} {task : TaskName} {step : StepName} {mutate : Mutation}
      (stale : s.ownedExecution claim = none) :
      Committed s (.advanceExecution claim task step mutate) false s
  | advanceExecution {claim : ExecutionClaim} {task : TaskName} {step : StepName}
      {mutate : Mutation} {job : JobExecution} {s₁ : Store}
      (owned : s.ownedExecution claim = some job) (mutated : Mutated s job mutate s₁) :
      Committed s (.advanceExecution claim task step mutate) true
        ((s₁.modifyJob claim.jobId fun job => { job with
          taskName := task, step := step, status := .pending, claimedAt := none }).modifyResource
          job fun r => { r with step := some step, status := .pending })
  | completeStale {claim : ExecutionClaim} {mutate : Mutation} {delete : Bool}
      (stale : s.ownedExecution claim = none) :
      Committed s (.completeExecution claim mutate delete) false s
  | completeExecution {claim : ExecutionClaim} {mutate : Mutation} {job : JobExecution} {s₁ : Store}
      (owned : s.ownedExecution claim = some job) (mutated : Mutated s job mutate s₁) :
      Committed s (.completeExecution claim mutate false) true (s₁.settleExecution claim job)
  | completeDeletion {claim : ExecutionClaim} {mutate : Mutation} {job : JobExecution} {s₁ : Store}
      (owned : s.ownedExecution claim = some job) (mutated : Mutated s job mutate s₁) :
      Committed s (.completeExecution claim mutate true) true
        ((s₁.modifyJob claim.jobId fun job =>
          { job with status := .success, claimedAt := none }).deleteResource job)
  | deferStale {claim : ExecutionClaim} {mutate : Mutation}
      (stale : s.ownedExecution claim = none) :
      Committed s (.deferExecution claim mutate) false s
  | deferExecution {claim : ExecutionClaim} {mutate : Mutation} {job : JobExecution} {s₁ : Store}
      (owned : s.ownedExecution claim = some job) (mutated : Mutated s job mutate s₁) :
      Committed s (.deferExecution claim mutate) true (s₁.releaseExecution claim job .pending)
  | failStale {claim : ExecutionClaim} {mutate : Mutation}
      (stale : s.ownedExecution claim = none) :
      Committed s (.failExecution claim mutate) () s
  | failExecution {claim : ExecutionClaim} {mutate : Mutation} {job : JobExecution} {s₁ : Store}
      (owned : s.ownedExecution claim = some job) (mutated : Mutated s job mutate s₁) :
      Committed s (.failExecution claim mutate) () (s₁.releaseExecution claim job .error)
  | retryRefused {jobId : UUID} {staleBefore : Time} :
      Committed s (.prepareExecutionRetry jobId staleBefore) none s
  | retryNamed {jobId : UUID} {staleBefore : Time} {job : JobExecution}
      (row : s.jobs.lookup jobId = some job)
      (idle : job.status = .pending ∨ job.status = .error)
      (current : Matches catalogue s.ledger jobId job.lease) :
      Committed s (.prepareExecutionRetry jobId staleBefore) (some job.taskName) s
  | retryReclaimed {jobId : UUID} {staleBefore at_ : Time} {job : JobExecution}
      (row : s.jobs.lookup jobId = some job) (running : job.status = .running)
      (claimed : job.claimedAt = some at_) (expired : at_ ≤ staleBefore)
      (current : Matches catalogue s.ledger jobId job.lease) :
      Committed s (.prepareExecutionRetry jobId staleBefore) (some job.taskName)
        ((s.modifyJob jobId fun job =>
          { job with status := .pending, claimedAt := none }).modifyResource job
          fun r => { r with status := .pending })
  | bootstrapStale {claim : ExecutionClaim} (stale : s.ownedExecution claim = none) :
      Committed s (.prepareBootstrap claim) none s
  | bootstrapKept {claim : ExecutionClaim} {job : JobExecution} {id : UUID} {i : Instance}
      {preparation : BootstrapPreparation} (owned : s.ownedExecution claim = some job)
      (row : s.ownedInstance job = some (id, i))
      (update : preparation.isUpdate = (job.name == .instanceUpdate))
      (url : preparation.instanceUrl = id)
      (password : (i.passwordEnc.isSome = true ∧ preparation.password = none) ∨
        (i.passwordEnc = none ∧ ∃ candidate value, i.passwordCandidateEnc = some candidate ∧
          candidate.decrypt id = some value ∧ preparation.password = some value)) :
      Committed s (.prepareBootstrap claim) (some preparation) s
  | bootstrapDrawn {claim : ExecutionClaim} {job : JobExecution} {id : UUID} {i : Instance}
      {preparation : BootstrapPreparation} {token : String}
      (owned : s.ownedExecution claim = some job) (row : s.ownedInstance job = some (id, i))
      (update : preparation.isUpdate = (job.name == .instanceUpdate))
      (url : preparation.instanceUrl = id) (unset : i.passwordEnc = none)
      (first : i.passwordCandidateEnc = none) (password : preparation.password = some token) :
      Committed s (.prepareBootstrap claim) (some preparation) { s with
        instances := s.instances.modify id fun i =>
          { i with passwordCandidateEnc := some (.encrypt token id) } }
  | claimMembers {claim : ExecutionClaim} {id : UUID} {i : Instance}
      (resource : claim.resourceId = some id) (row : s.instances.lookup id = some i) :
      Committed s (.claimMembers claim) {
        memberIds := ((s.storedMembers id).filter fun m => m.2.status.isActive).map Prod.fst
        members := s.activeMembers id
        slug := i.slug, attachedName := i.argocdApplicationName, publicUrl := id } { s with
          members := s.members.updateWhere (fun _ m => m.instanceId == id && m.status.isActive)
            (fun m => { m with status := .running }) }
  | claimCleanup {claim : ExecutionClaim} {id : UUID} {i : Instance} {answer : ClaimedCleanup}
      (resource : claim.resourceId = some id) (row : s.instances.lookup id = some i)
      (named : i.argocdApplicationName = some answer.applicationName)
      (ids : answer.memberIds = ((s.storedMembers id).filter fun m =>
        m.2.status == .running || m.2.status == .error).map Prod.fst) :
      Committed s (.claimCleanup claim) answer { s with
        members := s.members.updateWhere
          (fun _ m => m.instanceId == id && (m.status == .running || m.status == .error))
          (fun m => { m with status := .running }) }
  | finalizeStale {claim : ExecutionClaim} {memberIds : List UUID} {name : String} :
      Committed s (.finalizeUpdate claim memberIds name) .noop s
  | finalizeUpdate {claim : ExecutionClaim} {memberIds : List UUID} {name : String}
      {job : JobExecution} {id : UUID} {i : Instance} {s₁ : Store}
      (owned : s.ownedExecution claim = some job) (row : s.ownedInstance job = some (id, i))
      (final : s₁ = (Store.finalizeMembers { s with
        instances := s.instances.modify id fun i => { i with argocdApplicationName := some name } }
        id memberIds).settleExecution claim job)
      (converged : ∀ memberId m, s₁.members.lookup memberId = some m → m.instanceId = id →
        m.status ≠ .pending) :
      Committed s (.finalizeUpdate claim memberIds name) .success s₁
  | finalizeAgain {claim : ExecutionClaim} {memberIds : List UUID} {name : String}
      {job : JobExecution} {id : UUID} {i : Instance} {s₁ : Store}
      (owned : s.ownedExecution claim = some job) (row : s.ownedInstance job = some (id, i))
      (final : s₁ = (Store.finalizeMembers { s with
        instances := s.instances.modify id fun i => { i with argocdApplicationName := some name } }
        id memberIds).settleExecution claim job)
      (late : ∃ memberId m, s₁.members.lookup memberId = some m ∧ m.instanceId = id ∧
        m.status = .pending) :
      Committed s (.finalizeUpdate claim memberIds name) (.pending s₁.nextId)
        (s₁.stageJob .instanceUpdate .updating .instance id .instanceUpdateStep01).2
  | startedStale {claim : ExecutionClaim} {name : Option String}
      (stale : s.ownedExecution claim = none) :
      Committed s (.storeStartedApplication claim name) false s
  | storeStartedApplication {claim : ExecutionClaim} {name : Option String} {job : JobExecution}
      {id : UUID} {i : Instance} (owned : s.ownedExecution claim = some job)
      (row : s.ownedInstance job = some (id, i)) :
      Committed s (.storeStartedApplication claim name) true { s with
        instances := s.instances.modify id fun i => { i with
          argocdApplicationName := name <|> i.argocdApplicationName, state := .started } }
  | removeStale {claim : ExecutionClaim} :
      Committed s (.removeLocalConfiguration claim) false s
  | removeLocalConfiguration {claim : ExecutionClaim} {job : JobExecution} {id : UUID}
      {i : Instance} (owned : s.ownedExecution claim = some job)
      (row : s.ownedInstance job = some (id, i)) :
      Committed s (.removeLocalConfiguration claim) true
        ((s.modifyJob claim.jobId fun job =>
          { job with status := .success, claimedAt := none }).removeInstance id)
  | stateKept {snapshot : InstanceStateSnapshot} {observed : InstanceState} :
      Committed s (.recordInstanceState snapshot observed) false s
  | recordInstanceState {snapshot : InstanceStateSnapshot} {observed : InstanceState}
      {i : Instance} (row : s.instances.lookup snapshot.id = some i)
      (job : i.jobId = snapshot.jobId) (action : i.action = snapshot.action)
      (status : i.status = snapshot.status) (idle : i.status.inProgress = false)
      (alive : i.action ≠ .deleting) (differs : i.state ≠ observed) :
      Committed s (.recordInstanceState snapshot observed) true { s with
        instances := s.instances.modify snapshot.id fun i => { i with state := observed } }
  | deploymentApplied {claim : ExecutionClaim} {assignmentId templateId : UUID} {commit : String}
      {revision : Nat} {target : OwnedTemplateTarget} {preparation : TemplateDeploymentPreparation}
      {d : TemplateDeployment}
      (owned : s.lockOwnedTemplateTarget claim assignmentId (some templateId) = .ok target)
      (started : target.inst.state = .started) (settled : target.inst.status = .success)
      (row : target.deployment = some d) (applied : d.status = .success)
      (commitApplied : d.appliedCommit = some commit)
      (revisionApplied : d.appliedSystemParameterRevision = some revision)
      (answer : preparation.alreadyApplied = true) :
      Committed s (.prepareDeployment claim assignmentId templateId commit revision) preparation s
  | prepareDeployment {claim : ExecutionClaim} {assignmentId templateId : UUID} {commit : String}
      {revision : Nat} {target : OwnedTemplateTarget} {d : TemplateDeployment} {password : String}
      {systemValues : List (String × String)}
      (owned : s.lockOwnedTemplateTarget claim assignmentId (some templateId) = .ok target)
      (started : target.inst.state = .started) (settled : target.inst.status = .success)
      (row : d = target.deployment.getD Store.newDeployment)
      (values : s.systemParameterValues target.templateId = .ok systemValues) :
      Committed s (.prepareDeployment claim assignmentId templateId commit revision) {
          alreadyApplied := false, instanceUrl := target.instanceId, password
          persistedTemplateId := d.coderTemplateId
          persistedVersionId := if d.targetCommit = some commit ∧
            d.targetSystemParameterRevision = some revision then d.coderTemplateVersionId else none
          systemValues } { s with
        deployments := s.deployments.insert assignmentId { d with
          coderTemplateVersionId := if d.targetCommit = some commit ∧
            d.targetSystemParameterRevision = some revision then d.coderTemplateVersionId else none
          targetCommit := some commit, targetSystemParameterRevision := some revision
          status := .running } }
  | storeTemplateRemoteIds {claim : ExecutionClaim} {assignmentId : UUID}
      {organizationId coderTemplateId versionId : Option UUID} {target : OwnedTemplateTarget}
      {d : TemplateDeployment}
      (owned : s.lockOwnedTemplateTarget claim assignmentId none = .ok target)
      (row : target.deployment = some d) :
      Committed s (.storeTemplateRemoteIds claim assignmentId organizationId coderTemplateId
        versionId) () { s with
          deployments := s.deployments.modify assignmentId fun d => { d with
            coderOrganizationId := organizationId <|> d.coderOrganizationId
            coderTemplateId := coderTemplateId <|> d.coderTemplateId
            coderTemplateVersionId := versionId <|> d.coderTemplateVersionId } }
  | deploymentMissing {claim : ExecutionClaim} {assignmentId : UUID} {commit : String}
      {revision : Nat} {success : Bool} {target : OwnedTemplateTarget}
      (owned : s.lockOwnedTemplateTarget claim assignmentId none = .ok target)
      (row : target.deployment = none) :
      Committed s (.finishDeployment claim assignmentId commit revision success) () s
  | finishDeployment {claim : ExecutionClaim} {assignmentId : UUID} {commit : String}
      {revision : Nat} {success : Bool} {target : OwnedTemplateTarget} {d : TemplateDeployment}
      (owned : s.lockOwnedTemplateTarget claim assignmentId none = .ok target)
      (row : target.deployment = some d) :
      Committed s (.finishDeployment claim assignmentId commit revision success) () { s with
        deployments := s.deployments.modify assignmentId fun d =>
          if success then { d with
            status := .success, appliedCommit := some commit
            appliedSystemParameterRevision := some revision }
          else { d with status := .error } }
  | removeAssignmentStale {claim : ExecutionClaim} {snapshot : TemplateRemovalSnapshot} :
      Committed s (.removeLocalAssignment claim snapshot) false s
  | removeLocalAssignment {claim : ExecutionClaim} {snapshot : TemplateRemovalSnapshot}
      {job : JobExecution} {id : UUID} (owned : s.ownedExecution claim = some job)
      (type : job.resourceType = some .templateAssignment) (resource : job.resourceId = some id) :
      Committed s (.removeLocalAssignment claim snapshot) true
        { s.modifyJob claim.jobId fun job => { job with status := .success, claimedAt := none } with
          workspaces := s.workspaces.deleteWhere fun _ w =>
            w.templateId == snapshot.templateId && w.instanceId == snapshot.instanceId
          deployments := s.deployments.erase id
          assignments := s.assignments.erase id }
  | remoteIdsStale {claim : ExecutionClaim} {workspaceId buildId : UUID} :
      Committed s (.storeWorkspaceRemoteIds claim workspaceId buildId) false s
  | storeWorkspaceRemoteIds {claim : ExecutionClaim} {workspaceId buildId : UUID}
      {job : JobExecution} {id : UUID} (owned : s.ownedExecution claim = some job)
      (type : job.resourceType = some .workspace) (resource : job.resourceId = some id) :
      Committed s (.storeWorkspaceRemoteIds claim workspaceId buildId) true { s with
        workspaces := s.workspaces.modify id fun w => { w with
          coderWorkspaceId := some workspaceId, coderWorkspaceBuildId := some buildId } }

namespace Store
variable {s s' : Store} {claim : ExecutionClaim}

theorem claimExecution_committed (jobId : UUID) (task : TaskName) :
    Committed s (.claimExecution jobId task) (s.claimExecution jobId task).1
      (s.claimExecution jobId task).2 := by
  rcases s.claimExecution_cases jobId task with h | ⟨job, hrow, rfl, hidle, hm, h⟩
  · rw [h]
    exact .claimRefused
  · rw [h]
    exact .claimExecution hrow hidle hm

theorem heartbeatExecution_committed (claim : ExecutionClaim) :
    Committed s (.heartbeatExecution claim) (s.heartbeatExecution claim).1
      (s.heartbeatExecution claim).2 := by
  rcases s.heartbeatExecution_cases claim with ⟨ho, h⟩ | ⟨job, ho, h⟩
  · rw [h]
    exact .heartbeatStale ho
  · rw [h]
    exact .heartbeatExecution ho

theorem prepareExecutionRetry_committed (jobId : UUID) (staleBefore : Time) :
    Committed s (.prepareExecutionRetry jobId staleBefore)
      (s.prepareExecutionRetry jobId staleBefore).1
      (s.prepareExecutionRetry jobId staleBefore).2 := by
  rcases s.prepareExecutionRetry_cases jobId staleBefore with
    h | ⟨job, hrow, hm, ⟨hidle, h⟩ | ⟨hrun, ⟨at_, hat, hle⟩, h⟩⟩
  · rw [h]
    exact .retryRefused
  · rw [h]
    exact .retryNamed hrow hidle hm
  · rw [h]
    exact .retryReclaimed hrow hrun hat hle hm

theorem prepareBootstrap_committed {token : String} {a : Option BootstrapPreparation}
    (h : s.prepareBootstrap claim token = .ok (a, s')) :
    Committed s (.prepareBootstrap claim) a s' := by
  unfold prepareBootstrap at h
  cases ho : s.ownedExecution claim with
  | none =>
      simp only [ho, Except.ok.injEq, Prod.mk.injEq] at h
      obtain ⟨rfl, rfl⟩ := h
      exact .bootstrapStale ho
  | some job =>
      simp only [ho, bind_eq_ok, found_eq_ok] at h
      obtain ⟨⟨id, i⟩, hrow, h⟩ := h
      cases hset : i.passwordEnc with
      | some envelope =>
          simp only [hset, pure_eq_ok, Prod.mk.injEq] at h
          obtain ⟨rfl, rfl⟩ := h
          exact .bootstrapKept ho hrow rfl rfl (.inl ⟨by simp [hset], rfl⟩)
      | none =>
          cases hcandidate : i.passwordCandidateEnc with
          | some candidate =>
              simp only [hset, hcandidate, bind_eq_ok, pure_eq_ok, found_eq_ok, Prod.mk.injEq] at h
              obtain ⟨_, hvalue, rfl, rfl⟩ := h
              exact .bootstrapKept ho hrow rfl rfl (.inr ⟨hset, _, _, hcandidate, hvalue, rfl⟩)
          | none =>
              simp only [hset, hcandidate, pure_eq_ok, Prod.mk.injEq] at h
              obtain ⟨rfl, rfl⟩ := h
              exact .bootstrapDrawn ho hrow rfl rfl hset hcandidate rfl

theorem claimMembers_committed {a : ClaimedMembers} (h : s.claimMembers claim = .ok (a, s')) :
    Committed s (.claimMembers claim) a s' := by
  simp only [claimMembers, bind_eq_ok, pure_eq_ok, found_eq_ok, Prod.mk.injEq] at h
  obtain ⟨⟨id, i⟩, hrow, rfl, rfl⟩ := h
  obtain ⟨hid, hi⟩ := claimedInstance_eq_some.mp hrow
  exact .claimMembers hid hi

theorem claimCleanup_committed {a : ClaimedCleanup} (h : s.claimCleanup claim = .ok (a, s')) :
    Committed s (.claimCleanup claim) a s' := by
  simp only [claimCleanup, bind_eq_ok, found_eq_ok] at h
  obtain ⟨⟨id, i⟩, hrow, name, hname, h⟩ := h
  obtain ⟨hid, hi⟩ := claimedInstance_eq_some.mp hrow
  split at h
  · cases h
  · simp only [pure_eq_ok, Prod.mk.injEq] at h
    obtain ⟨rfl, rfl⟩ := h
    exact .claimCleanup hid hi hname rfl

theorem finalizeUpdate_committed {memberIds : List UUID} {name : String} {a : UpdateResult}
    (h : s.finalizeUpdate claim memberIds name = .ok (a, s')) :
    Committed s (.finalizeUpdate claim memberIds name) a s' := by
  unfold finalizeUpdate at h
  cases ho : s.ownedExecution claim with
  | none =>
      simp only [ho, Except.ok.injEq, Prod.mk.injEq] at h
      obtain ⟨rfl, rfl⟩ := h
      exact .finalizeStale
  | some job =>
      cases hrow : s.ownedInstance job with
      | none =>
          simp only [ho, hrow, Except.ok.injEq, Prod.mk.injEq] at h
          obtain ⟨rfl, rfl⟩ := h
          exact .finalizeStale
      | some r =>
          obtain ⟨id, i⟩ := r
          simp only [ho, hrow] at h
          split at h
          · rename_i hany
            simp only [Except.ok.injEq, Prod.mk.injEq] at h
            obtain ⟨rfl, rfl⟩ := h
            refine .finalizeAgain ho hrow rfl ?_
            obtain ⟨memberId, m, hm, hp⟩ := Table.any_eq_true.mp hany
            simp only [Bool.and_eq_true, beq_iff_eq] at hp
            exact ⟨memberId, m, hm, hp.1, hp.2⟩
          · rename_i hany
            simp only [Except.ok.injEq, Prod.mk.injEq] at h
            obtain ⟨rfl, rfl⟩ := h
            refine .finalizeUpdate ho hrow rfl fun memberId m hm hid hpending => hany ?_
            exact Table.any_eq_true.mpr ⟨memberId, m, hm, by simp [hid, hpending]⟩

theorem storeStartedApplication_committed {name : Option String} {a : Bool}
    (h : s.storeStartedApplication claim name = .ok (a, s')) :
    Committed s (.storeStartedApplication claim name) a s' := by
  unfold storeStartedApplication at h
  cases ho : s.ownedExecution claim with
  | none =>
      simp only [ho, Except.ok.injEq, Prod.mk.injEq] at h
      obtain ⟨rfl, rfl⟩ := h
      exact .startedStale ho
  | some job =>
      simp only [ho, bind_eq_ok, pure_eq_ok, found_eq_ok, Prod.mk.injEq] at h
      obtain ⟨⟨id, i⟩, hrow, rfl, rfl⟩ := h
      exact .storeStartedApplication ho hrow

theorem removeLocalConfiguration_committed {a : Bool}
    (h : s.removeLocalConfiguration claim = .ok (a, s')) :
    Committed s (.removeLocalConfiguration claim) a s' := by
  unfold removeLocalConfiguration at h
  cases ho : s.ownedExecution claim with
  | none =>
      simp only [ho, Except.ok.injEq, Prod.mk.injEq] at h
      obtain ⟨rfl, rfl⟩ := h
      exact .removeStale
  | some job =>
      cases hrow : s.ownedInstance job with
      | none =>
          simp only [ho, hrow, Except.ok.injEq, Prod.mk.injEq] at h
          obtain ⟨rfl, rfl⟩ := h
          exact .removeStale
      | some r =>
          simp only [ho, hrow, Except.ok.injEq, Prod.mk.injEq] at h
          obtain ⟨rfl, rfl⟩ := h
          exact .removeLocalConfiguration ho hrow

theorem recordInstanceState_committed (snapshot : InstanceStateSnapshot)
    (observed : InstanceState) :
    Committed s (.recordInstanceState snapshot observed)
      (s.recordInstanceState snapshot observed).1 (s.recordInstanceState snapshot observed).2 := by
  unfold recordInstanceState
  split
  · exact .stateKept
  · rename_i i hrow
    split
    · exact .stateKept
    · rename_i hguard
      simp only [not_or, Decidable.not_not, Bool.not_eq_true] at hguard
      obtain ⟨hjob, haction, hstatus, hidle, halive, hdiffers⟩ := hguard
      exact .recordInstanceState hrow hjob haction hstatus hidle halive hdiffers

theorem prepareDeployment_committed {assignmentId templateId : UUID} {commit : String}
    {revision : Nat} {a : TemplateDeploymentPreparation}
    (h : s.prepareDeployment claim assignmentId templateId commit revision = .ok (a, s')) :
    Committed s (.prepareDeployment claim assignmentId templateId commit revision) a s' := by
  simp only [prepareDeployment, bind_eq_ok] at h
  obtain ⟨target, htarget, h⟩ := h
  split at h
  · cases h
  · rename_i hup
    simp only [Bool.not_eq_true', Bool.not_eq_false, Bool.and_eq_true, beq_iff_eq] at hup
    simp only [bind_eq_ok, found_eq_ok] at h
    obtain ⟨envelope, -, h⟩ := h
    split at h
    · rename_i happlied
      simp only [pure_eq_ok, Prod.mk.injEq] at h
      obtain ⟨rfl, rfl⟩ := h
      simp only [Store.deploymentApplied, Bool.and_eq_true, beq_iff_eq] at happlied
      obtain ⟨⟨hst, hcommit⟩, hrev⟩ := happlied
      cases hd : target.deployment with
      | none =>
          rw [hd] at hst
          cases hst
      | some d =>
          rw [hd] at hst hcommit hrev
          exact .deploymentApplied htarget hup.1 hup.2 hd hst hcommit hrev rfl
    · simp only [bind_eq_ok, pure_eq_ok, found_eq_ok, Prod.mk.injEq] at h
      obtain ⟨password, -, values, hvalues, rfl, rfl⟩ := h
      have := @Committed.prepareDeployment s claim assignmentId templateId commit revision target _
        password values htarget hup.1 hup.2 rfl hvalues
      simpa only [Bool.and_eq_true, beq_iff_eq] using this

theorem storeTemplateRemoteIds_committed {assignmentId : UUID}
    {organizationId templateId versionId : Option UUID}
    (h : s.storeTemplateRemoteIds claim assignmentId organizationId templateId versionId = .ok s') :
    Committed s (.storeTemplateRemoteIds claim assignmentId organizationId templateId versionId) ()
      s' := by
  simp only [storeTemplateRemoteIds, bind_eq_ok, pure_eq_ok, found_eq_ok] at h
  obtain ⟨target, htarget, d, hd, rfl⟩ := h
  exact .storeTemplateRemoteIds htarget hd

theorem finishDeployment_committed {assignmentId : UUID} {commit : String} {revision : Nat}
    {success : Bool} (h : s.finishDeployment claim assignmentId commit revision success = .ok s') :
    Committed s (.finishDeployment claim assignmentId commit revision success) () s' := by
  simp only [finishDeployment, bind_eq_ok] at h
  obtain ⟨target, htarget, h⟩ := h
  split at h
  · rename_i hd
    cases h
    exact .deploymentMissing htarget hd
  · rename_i d hd
    cases h
    exact .finishDeployment htarget hd

theorem removeLocalAssignment_committed {snapshot : TemplateRemovalSnapshot} {a : Bool}
    (h : s.removeLocalAssignment claim snapshot = .ok (a, s')) :
    Committed s (.removeLocalAssignment claim snapshot) a s' := by
  unfold removeLocalAssignment at h
  cases ho : s.ownedExecution claim with
  | none =>
      simp only [ho, Except.ok.injEq, Prod.mk.injEq] at h
      obtain ⟨rfl, rfl⟩ := h
      exact .removeAssignmentStale
  | some job =>
      simp only [ho] at h
      split at h
      · rename_i id htype hid
        simp only [Except.ok.injEq, Prod.mk.injEq] at h
        obtain ⟨rfl, rfl⟩ := h
        exact .removeLocalAssignment ho htype hid
      · simp only [Except.ok.injEq, Prod.mk.injEq] at h
        obtain ⟨rfl, rfl⟩ := h
        exact .removeAssignmentStale

theorem storeWorkspaceRemoteIds_committed {workspaceId buildId : UUID} {a : Bool}
    (h : s.storeWorkspaceRemoteIds claim workspaceId buildId = .ok (a, s')) :
    Committed s (.storeWorkspaceRemoteIds claim workspaceId buildId) a s' := by
  unfold storeWorkspaceRemoteIds at h
  cases ho : s.ownedExecution claim with
  | none =>
      simp only [ho, Except.ok.injEq, Prod.mk.injEq] at h
      obtain ⟨rfl, rfl⟩ := h
      exact .remoteIdsStale
  | some job =>
      simp only [ho] at h
      split at h
      · rename_i id htype hid
        simp only [Except.ok.injEq, Prod.mk.injEq] at h
        obtain ⟨rfl, rfl⟩ := h
        exact .storeWorkspaceRemoteIds ho htype hid
      · simp only [Except.ok.injEq, Prod.mk.injEq] at h
        obtain ⟨rfl, rfl⟩ := h
        exact .remoteIdsStale

/-- Every committed transaction is one of the listed ones. -/
theorem committed {β : Type} {t : Transaction β} {token : String} {a : β}
    (h : s.transact token t = .ok (a, s')) : Committed s t a s' := by
  cases t with
  | claimExecution jobId task =>
      have hs := claimExecution_committed jobId task (s := s)
      rwa [Except.ok.inj h] at hs
  | heartbeatExecution claim =>
      have hs := heartbeatExecution_committed claim (s := s)
      rwa [Except.ok.inj h] at hs
  | advanceExecution claim task step mutate =>
      rcases advanceExecution_ok h with ⟨ho, rfl, rfl⟩ | ⟨job, s₁, ho, hm, rfl, rfl⟩
      · exact .advanceStale ho
      · exact .advanceExecution ho (Mutation.mutated hm)
  | completeExecution claim mutate delete =>
      rcases completeExecution_ok h with ⟨ho, rfl, rfl⟩ | ⟨job, s₁, ho, hm, rfl, rfl⟩
      · exact .completeStale ho
      · cases delete with
        | false => exact .completeExecution ho (Mutation.mutated hm)
        | true => exact .completeDeletion ho (Mutation.mutated hm)
  | deferExecution claim mutate =>
      rcases deferExecution_ok h with ⟨ho, rfl, rfl⟩ | ⟨job, s₁, ho, hm, rfl, rfl⟩
      · exact .deferStale ho
      · exact .deferExecution ho (Mutation.mutated hm)
  | failExecution claim mutate =>
      simp only [transact, bind_eq_ok, pure_eq_ok, Prod.mk.injEq, true_and] at h
      obtain ⟨_, h, rfl⟩ := h
      rcases failExecution_ok h with ⟨ho, rfl⟩ | ⟨job, s₁, ho, hm, rfl⟩
      · exact .failStale ho
      · exact .failExecution ho (Mutation.mutated hm)
  | prepareExecutionRetry jobId staleBefore =>
      have hs := prepareExecutionRetry_committed jobId staleBefore (s := s)
      rwa [Except.ok.inj h] at hs
  | prepareBootstrap claim => exact prepareBootstrap_committed h
  | claimMembers claim => exact claimMembers_committed h
  | claimCleanup claim => exact claimCleanup_committed h
  | finalizeUpdate claim memberIds name => exact finalizeUpdate_committed h
  | storeStartedApplication claim name => exact storeStartedApplication_committed h
  | removeLocalConfiguration claim => exact removeLocalConfiguration_committed h
  | recordInstanceState snapshot observed =>
      have hs := recordInstanceState_committed snapshot observed (s := s)
      rwa [Except.ok.inj h] at hs
  | prepareDeployment claim assignmentId templateId commit revision =>
      exact prepareDeployment_committed h
  | storeTemplateRemoteIds claim assignmentId organizationId templateId versionId =>
      simp only [transact, bind_eq_ok, pure_eq_ok, Prod.mk.injEq, true_and] at h
      obtain ⟨_, h, rfl⟩ := h
      exact storeTemplateRemoteIds_committed h
  | finishDeployment claim assignmentId commit revision success =>
      simp only [transact, bind_eq_ok, pure_eq_ok, Prod.mk.injEq, true_and] at h
      obtain ⟨_, h, rfl⟩ := h
      exact finishDeployment_committed h
  | removeLocalAssignment claim snapshot => exact removeLocalAssignment_committed h
  | storeWorkspaceRemoteIds claim workspaceId buildId => exact storeWorkspaceRemoteIds_committed h

end Store
end CoderManager
