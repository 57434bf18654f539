import CoderManager.Runs

/-!
# Lifecycles under requests and transactions

What a committed transaction may do to the lifecycle of one resource: workers
move a resource that has not converged, and never touch a settled one.
-/
namespace CoderManager
open Tables Leases

/-- One lifecycle before and after a worker's transaction. -/
inductive Worked : ResourceType → Lifecycle → Lifecycle → Prop
  | same {type : ResourceType} (r : Lifecycle) : Worked type r r
  | claimed {type : ResourceType} {r : Lifecycle} (idle : r.status = .pending ∨ r.status = .error) :
      Worked type r { r with status := .running }
  | released {type : ResourceType} {r : Lifecycle} {status : Status} (running : r.status = .running)
      (idle : status = .pending ∨ status = .error) : Worked type r { r with status }
  | advanced {type : ResourceType} {r : Lifecycle} (step : StepName) (running : r.status = .running) :
      Worked type r { r with step := some step, status := .pending }
  | settled {type : ResourceType} {r : Lifecycle} (running : r.status = .running)
      (alive : type = .instance → r.action ≠ .deleting) :
      Worked type r { r with status := .success, step := none }
  | created {r : Lifecycle} (running : r.status = .running) :
      Worked .templateAssignment r { r with action := .created, status := .success, step := none }
  | restaged {r : Lifecycle} (jobId : UUID) (running : r.status = .running)
      (updates : r.action = .updating ∨ r.action = .starting) :
      Worked .instance r ⟨.updating, .pending, some jobId, some .instanceUpdateStep01⟩

theorem Worked.eq_of_success {type : ResourceType} {r r' : Lifecycle} (h : Worked type r r')
    (settled : r.status = .success) : r' = r := by
  cases h with
  | same => rfl
  | claimed idle => rcases idle with h | h <;> rw [settled] at h <;> cases h
  | released running | advanced _ running | settled running | created running
  | restaged _ running => rw [settled] at running; cases running

theorem Worked.action_cases {r r' : Lifecycle} (h : Worked .instance r r') :
    r'.action = r.action ∨ r'.action = .updating := by
  cases h with
  | same | claimed | released | advanced | settled => exact .inl rfl
  | restaged => exact .inr rfl

theorem Worked.action_workspace {r r' : Lifecycle} (h : Worked .workspace r r') :
    r'.action = r.action := by
  cases h with
  | same | claimed | released | advanced | settled => rfl

namespace Store
variable {s s' s₁ : Store} {c : ExecutionClaim} {job : JobExecution} {type : ResourceType}
  {id jobId : UUID} {r r' : Lifecycle}

theorem matches_lifecycle (hl : Consistent catalogue s.ledger)
    (row : s.jobs.lookup jobId = some job) (current : Matches catalogue s.ledger jobId job.lease)
    (owner : job.lease.owner = some (type, some id)) (hr : s.lifecycle type id = some r) :
    r.jobId = some jobId ∧ r.status = job.status ∧ r.step = some job.step ∧
      resourceActions job.name = some r.action := by
  have hr' : s.ledger.owners (type, some id) = some r := by simpa [ledger] using hr
  obtain ⟨d, hd, hjob, haction, hstep⟩ := current _ owner
  rw [hr', Option.some.injEq] at hd
  subst hd
  obtain ⟨b, hb, -, hstatus⟩ := hl.current _ r jobId hr' hjob
  have hlease : b = job.lease := by simpa [ledger, row, eq_comm] using hb
  exact ⟨hjob, by rw [← hstatus, hlease]; rfl, hstep, haction⟩

theorem owned_steps (hl : Consistent catalogue s.ledger) (owned : s.ownedExecution c = some job)
    (owner : job.lease.owner = some (.instance, some id)) (hr : s.lifecycle .instance id = some r)
    {name : JobName} (action : resourceActions name = some r.action)
    (made : name.resourceType = some .instance) : c.step ∈ name.steps := by
  obtain ⟨row, -, -, -, -, current⟩ := ownedExecution_eq_some.mp owned
  have haction := (matches_lifecycle hl row current owner hr).2.2.2
  have hmade : job.name.resourceType = some .instance :=
    hl.made c.jobId job.lease (.instance, some id) (by simp [ledger, row]) owner
  have hname : job.name = name := JobName.eq_of_action (haction.trans action.symm) hmade made
  exact hname ▸ owned_mem_steps hl owned

theorem owned_not_deleting (hl : Consistent catalogue s.ledger)
    (owned : s.ownedExecution c = some job) (step : c.step ∉ JobName.instanceDelete.steps)
    (owner : job.lease.owner = some (.instance, some id))
    (hr : s.lifecycle .instance id = some r) : r.action ≠ .deleting := fun hdel =>
  step (owned_steps hl owned owner hr (hdel ▸ rfl) rfl)

theorem owned_not_creating (hl : Consistent catalogue s.ledger)
    (owned : s.ownedExecution c = some job) (step : c.step ∉ JobName.instanceCreate.steps)
    (owner : job.lease.owner = some (.instance, some id))
    (hr : s.lifecycle .instance id = some r) : r.action ≠ .creating := fun hcr =>
  step (owned_steps hl owned owner hr (hcr ▸ rfl) rfl)

theorem put_worked {g : JobExecution → JobExecution} {f : Lifecycle → Lifecycle}
    (kept : ∀ r, s₁.lifecycle type id = some r → s.lifecycle type id = some r)
    (own : ∀ r, job.lease.owner = some (type, some id) → s.lifecycle type id = some r →
      Worked type r (f r))
    (row' : ((s₁.modifyJob jobId g).modifyResource job f).lifecycle type id = some r') :
    ∃ r, s.lifecycle type id = some r ∧ Worked type r r' := by
  rw [lifecycle_modifyResource, lifecycle_modifyJob] at row'
  split at row'
  · rename_i howner
    obtain ⟨r, hr, rfl⟩ := Option.map_eq_some_iff.mp row'
    exact ⟨r, kept r hr, own r howner (kept r hr)⟩
  · exact ⟨r', kept r' row', .same r'⟩

theorem lifecycle_stageJob {name : JobName} {action : Action} {step : StepName}
    (type' : ResourceType) (id' : UUID) :
    (s.stageJob name action type id step).2.lifecycle type' id' =
      if type' = type ∧ id' = id then (s.lifecycle type' id').map fun _ =>
        ⟨action, .pending, some s.nextId, some step⟩
      else s.lifecycle type' id' := by
  have hold : (s.addJobExecution name step.task (some type) (some id) step).2.lifecycle type' id' =
      s.lifecycle type' id' := by cases type' <;> rfl
  rw [← hold]
  exact lifecycle_modifyLifecycle _ _ _ _ _ _

theorem lifecycle_of_finalizeMembers (instanceId : UUID) (memberIds : List UUID) (name : String) {r : Lifecycle}
    (hr : (Store.finalizeMembers { s with
      instances := s.instances.modify instanceId fun i => { i with argocdApplicationName := some name } }
      instanceId memberIds).lifecycle type id = some r) : s.lifecycle type id = some r := by
  cases type with
  | «instance» => rwa [lifecycle_finalizeMembers] at hr
  | template => exact hr
  | templateAssignment => exact hr
  | workspace =>
      obtain ⟨w, hw, rfl⟩ := Option.map_eq_some_iff.mp hr
      exact Option.map_eq_some_iff.mpr ⟨_, (Table.lookup_deleteWhere_some.mp hw).1, rfl⟩

theorem kept_worked (row' : s'.lifecycle type id = some r')
    (kept : ∀ r, s'.lifecycle type id = some r → s.lifecycle type id = some r) :
    ∃ r, s.lifecycle type id = some r ∧ Worked type r r' := ⟨r', kept r' row', .same r'⟩

end Store

open Store in
/-- What a transaction of a worker does to one resource. -/
theorem Committed.worked {s s' : Store} {β : Type} {t : Transaction β} {a : β} {h : WorkerHistory}
    (hc : Committed s t a s') (hg : Discipline.transaction h t)
    (hl : Consistent catalogue s.ledger) {type : ResourceType} {id : UUID} {r' : Lifecycle}
    (row' : s'.lifecycle type id = some r') :
    ∃ r, s.lifecycle type id = some r ∧ Worked type r r' := by
  -- The resource of an owned job is running.
  have running : ∀ {c : ExecutionClaim} {job : JobExecution} {r : Lifecycle},
      s.ownedExecution c = some job → job.lease.owner = some (type, some id) →
      s.lifecycle type id = some r → r.status = .running := by
    intro c job r owned howner hr
    obtain ⟨row, hrun, current⟩ := ownedExecution_row owned
    exact (matches_lifecycle hl row current howner hr).2.1.trans hrun
  have unchanged : (∀ type id, s'.lifecycle type id = s.lifecycle type id) →
      ∃ r, s.lifecycle type id = some r ∧ Worked type r r' :=
    fun same => ⟨r', same type id ▸ row', .same r'⟩
  have rewritten : ∀ {id' : UUID} {f : Instance → Instance},
      (∀ i, (f i).toLifecycle = i.toLifecycle) → ∀ type id,
      ({ s with instances := s.instances.modify id' f } : Store).lifecycle type id =
        s.lifecycle type id := by
    intro id' f hf type id
    cases type <;> simp only [lifecycle]
    by_cases hid : id = id'
    · cases hi : s.instances.lookup id' <;> simp [hid, hi, hf]
    · simp [Table.lookup_modify_ne, hid]
  cases hc with
  | claimRefused | heartbeatStale | advanceStale | completeStale | deferStale | failStale
  | retryRefused | retryNamed | bootstrapStale | bootstrapKept | finalizeStale | startedStale
  | removeStale | stateKept | deploymentApplied | deploymentMissing | removeAssignmentStale
  | remoteIdsStale => exact unchanged fun _ _ => rfl
  | claimExecution row idle current =>
      refine put_worked (fun _ hr => hr) (fun r howner hr => .claimed ?_) row'
      rw [(matches_lifecycle hl row current howner hr).2.1]
      exact idle
  | heartbeatExecution =>
      exact unchanged fun type id => congrFun (congrFun (lifecycle_modifyJob _ _ _) type) id
  | advanceExecution owned mutated =>
      obtain ⟨-, -, hadv⟩ := hg
      exact put_worked (fun _ hr => (mutated.same hadv.ne_markCreated).2.1 _ _ ▸ hr)
        (fun r howner hr => .advanced _ (running owned howner hr)) row'
  | @completeExecution c mutate job s₁ owned mutated =>
      by_cases hm : mutate = .markCreated
      · subst hm
        cases mutated with
        | @markCreated assignmentId htype hid =>
            rw [settleExecution, lifecycle_modifyResource, lifecycle_modifyJob,
              lifecycle_modifyLifecycle] at row'
            by_cases hkey : type = .templateAssignment ∧ id = assignmentId
            · obtain ⟨rfl, rfl⟩ := hkey
              have howner : job.lease.owner = some (.templateAssignment, some id) := by
                simp [JobExecution.lease, htype, hid]
              simp only [howner, if_true, and_self] at row'
              obtain ⟨r₁, hr₁, rfl⟩ := Option.map_eq_some_iff.mp row'
              obtain ⟨r, hr, rfl⟩ := Option.map_eq_some_iff.mp hr₁
              exact ⟨r, hr, .created (running owned howner hr)⟩
            · have hne : job.lease.owner ≠ some (type, some id) := by
                intro howner
                simp only [JobExecution.lease, htype, hid, Option.map_some, Option.some.injEq,
                  Prod.mk.injEq] at howner
                exact hkey ⟨howner.1.symm, howner.2.symm⟩
              rw [if_neg hne, if_neg hkey] at row'
              exact ⟨r', row', .same r'⟩
      · refine put_worked (fun _ hr => (mutated.same hm).2.1 _ _ ▸ hr)
          (fun r howner hr => .settled (running owned howner hr) ?_) row'
        rintro rfl
        refine owned_not_deleting hl owned ?_ howner hr
        obtain ⟨-, hconcl⟩ := hg
        cases hconcl with
        | bootstrapAdmin step | stopInstance step | createTemplate step =>
            rw [step]
            decide
        | sync step | convergeWorkspace step => rcases step with h | h <;> rw [h] <;> decide
  | @completeDeletion c mutate job s₁ owned mutated =>
      have hm : mutate ≠ .markCreated := by
        cases hg.2
        rintro ⟨⟩
      refine kept_worked row' fun r hr => ?_
      unfold deleteResource at hr
      split at hr
      · rw [lifecycle_deleteLifecycle, lifecycle_modifyJob, (mutated.same hm).2.1] at hr
        split at hr
        · cases hr
        · exact hr
      · rwa [lifecycle_modifyJob, (mutated.same hm).2.1] at hr
  | deferExecution owned mutated =>
      exact put_worked (fun _ hr => (mutated.same hg.2.ne_markCreated).2.1 _ _ ▸ hr)
        (fun r howner hr => .released (running owned howner hr) (.inl rfl)) row'
  | failExecution owned mutated =>
      exact put_worked (fun _ hr => (mutated.same hg.2.ne_markCreated).2.1 _ _ ▸ hr)
        (fun r howner hr => .released (running owned howner hr) (.inr rfl)) row'
  | retryReclaimed row hrun _ _ current =>
      refine put_worked (fun _ hr => hr) (fun r howner hr => .released ?_ (.inl rfl)) row'
      exact (matches_lifecycle hl row current howner hr).2.1.trans hrun
  | bootstrapDrawn => exact unchanged (rewritten fun _ => rfl)
  | claimMembers | claimCleanup | prepareDeployment | storeTemplateRemoteIds
  | finishDeployment => exact unchanged fun type id => by cases type <;> rfl
  | finalizeUpdate owned row final =>
      subst final
      refine put_worked (fun _ hr => lifecycle_of_finalizeMembers _ _ _ hr)
        (fun r howner hr => .settled (running owned howner hr) ?_) row'
      rintro rfl
      exact owned_not_deleting hl owned (by rw [hg.2.1]; decide) howner hr
  | @finalizeAgain c memberIds name job instanceId i s₁ owned row final =>
      obtain ⟨htype, hid, hi⟩ := ownedInstance_eq_some.mp row
      rw [lifecycle_stageJob] at row'
      by_cases hkey : type = .instance ∧ id = instanceId
      · obtain ⟨rfl, rfl⟩ := hkey
        have howner : job.lease.owner = some (.instance, some id) := by
          simp [JobExecution.lease, htype, hid]
        have hr := lifecycle_instance hi
        have hsettled : s₁.lifecycle .instance id =
            some { i.toLifecycle with status := .success, step := none } := by
          simp [final, settleExecution, lifecycle_modifyResource, lifecycle_finalizeMembers, howner,
            hr]
        simp only [and_self, if_true, hsettled, Option.map_some, Option.some.injEq] at row'
        subst row'
        refine ⟨i.toLifecycle, hr, .restaged _ (running owned howner hr) ?_⟩
        obtain ⟨hrow, -, current⟩ := ownedExecution_row owned
        have haction := (matches_lifecycle hl hrow current howner hr).2.2.2
        have hmem := owned_mem_steps hl owned
        rw [hg.2.1] at hmem
        revert haction hmem
        cases job.name <;> simp_all [resourceActions, JobName.steps, eq_comm]
      · rw [if_neg hkey, final] at row'
        refine put_worked (fun _ hr => lifecycle_of_finalizeMembers _ _ _ hr)
          (fun r howner hr => .settled (running owned howner hr) ?_) row'
        rintro rfl
        exact owned_not_deleting hl owned (by rw [hg.2.1]; decide) howner hr
  | storeStartedApplication => exact unchanged (rewritten fun _ => rfl)
  | removeLocalConfiguration =>
      refine kept_worked row' fun r hr => ?_
      cases type with
      | template => exact hr
      | «instance» =>
          obtain ⟨i, hi, rfl⟩ := Option.map_eq_some_iff.mp hr
          exact Option.map_eq_some_iff.mpr ⟨_, (Table.lookup_erase_some.mp hi).2, rfl⟩
      | templateAssignment =>
          obtain ⟨a, ha, rfl⟩ := Option.map_eq_some_iff.mp hr
          exact Option.map_eq_some_iff.mpr ⟨_, (Table.lookup_deleteWhere_some.mp ha).1, rfl⟩
      | workspace =>
          obtain ⟨w, hw, rfl⟩ := Option.map_eq_some_iff.mp hr
          exact Option.map_eq_some_iff.mpr ⟨_, (Table.lookup_deleteWhere_some.mp hw).1, rfl⟩
  | recordInstanceState => exact unchanged (rewritten fun _ => rfl)
  | removeLocalAssignment =>
      refine kept_worked row' fun r hr => ?_
      cases type with
      | «instance» | template => exact hr
      | templateAssignment =>
          obtain ⟨a, ha, rfl⟩ := Option.map_eq_some_iff.mp hr
          exact Option.map_eq_some_iff.mpr ⟨_, (Table.lookup_erase_some.mp ha).2, rfl⟩
      | workspace =>
          obtain ⟨w, hw, rfl⟩ := Option.map_eq_some_iff.mp hr
          exact Option.map_eq_some_iff.mpr ⟨_, (Table.lookup_deleteWhere_some.mp hw).1, rfl⟩
  | @storeWorkspaceRemoteIds c workspaceId buildId job id' =>
      refine unchanged fun type id => ?_
      cases type <;> simp only [lifecycle]
      by_cases hid : id = id'
      · cases hw : s.workspaces.lookup id' <;> simp [hid, hw]
      · simp [Table.lookup_modify_ne, hid]

theorem Committed.active_before {s s' : Store} {β : Type} {t : Transaction β} {a : β}
    {h : WorkerHistory} (hc : Committed s t a s') (hg : Discipline.transaction h t)
    (hl : Consistent catalogue s.ledger) {type : ResourceType} {id : UUID} {r r' : Lifecycle}
    (row : s.lifecycle type id = some r) (row' : s'.lifecycle type id = some r')
    (active : r'.status ≠ .success) : r.status ≠ .success := by
  intro settled
  obtain ⟨r₀, hr₀, hworked⟩ := hc.worked hg hl row'
  obtain rfl : r = r₀ := Option.some.inj (row.symm.trans hr₀)
  rw [hworked.eq_of_success settled] at active
  exact active settled

section Frame
variable (s : Store) (type : ResourceType) (id : UUID) (f : Lifecycle → Lifecycle)
  (job : JobExecution) (name : JobName) (action : Action) (step : StepName)

@[simp] theorem Store.members_modifyLifecycle :
    (s.modifyLifecycle type id f).members = s.members := by cases type <;> rfl

@[simp] theorem Store.deployments_modifyLifecycle :
    (s.modifyLifecycle type id f).deployments = s.deployments := by cases type <;> rfl

@[simp] theorem Store.members_modifyResource : (s.modifyResource job f).members = s.members := by
  unfold Store.modifyResource
  split <;> simp

@[simp] theorem Store.deployments_modifyResource :
    (s.modifyResource job f).deployments = s.deployments := by
  unfold Store.modifyResource
  split <;> simp

@[simp] theorem Store.members_deleteResource : (s.deleteResource job).members = s.members := by
  unfold Store.deleteResource
  split
  · rename_i type id _ _
    cases type <;> rfl
  · rfl

@[simp] theorem Store.deployments_deleteResource :
    (s.deleteResource job).deployments = s.deployments := by
  unfold Store.deleteResource
  split
  · rename_i type id _ _
    cases type <;> rfl
  · rfl

@[simp] theorem Store.members_stageJob :
    (s.stageJob name action type id step).2.members = s.members := by
  simp [Store.stageJob, Store.addJobExecution, Store.drawId]

@[simp] theorem Store.deployments_stageJob :
    (s.stageJob name action type id step).2.deployments = s.deployments := by
  simp [Store.stageJob, Store.addJobExecution, Store.drawId]

end Frame

/-- What workers keep of the other columns: every row is an old one with the same
references and the same configuration. -/
structure Narrowed (s s' : Store) : Prop where
  nextId : s.nextId ≤ s'.nextId
  instances : Table.Within (fun i => i.slug) s.instances s'.instances
  templates : Table.Within (fun t => (t.name, t.displayName, t.gitUrl, t.sourcePath, t.branch,
    t.modules, t.systemParameterRevision)) s.templates s'.templates
  members : Table.Within (fun m => (m.instanceId, m.username, m.role, m.action)) s.members s'.members
  assignments : Table.Within (fun a => (a.instanceId, a.templateId)) s.assignments s'.assignments
  workspaces : Table.Within (fun w => (w.instanceId, w.templateId, w.memberId, w.imageId, w.modules,
    w.name, w.parameters, w.parametersRevision)) s.workspaces s'.workspaces
  images : s'.images = s.images
  parameters : s'.parameters = s.parameters
  systemValues : s'.systemValues = s.systemValues
  databases : s'.databases = s.databases
  allocations : Table.Within id s.allocations s'.allocations

namespace Narrowed
variable {s s' s'' : Store}

theorem refl (s : Store) : Narrowed s s :=
  ⟨Nat.le_refl _, .refl _ _, .refl _ _, .refl _ _, .refl _ _, .refl _ _, rfl, rfl, rfl, rfl, .refl _ _⟩

theorem trans (h : Narrowed s s') (h' : Narrowed s' s'') : Narrowed s s'' :=
  ⟨Nat.le_trans h.nextId h'.nextId, h.instances.trans h'.instances, h.templates.trans h'.templates,
    h.members.trans h'.members, h.assignments.trans h'.assignments,
    h.workspaces.trans h'.workspaces, h'.images.trans h.images, h'.parameters.trans h.parameters,
    h'.systemValues.trans h.systemValues, h'.databases.trans h.databases,
    h.allocations.trans h'.allocations⟩

theorem modifyJob (jobId : UUID) (g : JobExecution → JobExecution) :
    Narrowed s (s.modifyJob jobId g) := { refl s with nextId := Nat.le_refl _ }

theorem modifyLifecycle (type : ResourceType) (id : UUID) (f : Lifecycle → Lifecycle) :
    Narrowed s (s.modifyLifecycle type id f) := by
  have h := refl s
  cases type with
  | «instance» => exact { h with instances := .modify fun _ => rfl }
  | template => exact { h with templates := .modify fun _ => rfl }
  | templateAssignment => exact { h with assignments := .modify fun _ => rfl }
  | workspace => exact { h with workspaces := .modify fun _ => rfl }

theorem modifyResource (job : JobExecution) (f : Lifecycle → Lifecycle) :
    Narrowed s (s.modifyResource job f) := by
  unfold Store.modifyResource
  split
  · exact modifyLifecycle _ _ _
  · exact refl s

theorem put (jobId : UUID) (g : JobExecution → JobExecution) (job : JobExecution)
    (f : Lifecycle → Lifecycle) : Narrowed s ((s.modifyJob jobId g).modifyResource job f) :=
  (modifyJob jobId g).trans (modifyResource job f)

theorem stageJob (name : JobName) (action : Action) (type : ResourceType) (id : UUID)
    (step : StepName) : Narrowed s (s.stageJob name action type id step).2 := by
  have h : Narrowed s (s.addJobExecution name step.task (some type) (some id) step).2 :=
    { refl s with nextId := Nat.le_succ _ }
  have h' := h.trans (modifyLifecycle type id fun _ =>
    { action, status := .pending, jobId := some s.nextId, step := some step })
  exact h'

theorem settleExecution (c : ExecutionClaim) (job : JobExecution) :
    Narrowed s (s.settleExecution c job) := put _ _ _ _

theorem rewriteInstances {id : UUID} {f : Instance → Instance} (same : ∀ i, (f i).slug = i.slug) :
    Narrowed s { s with instances := s.instances.modify id f } :=
  { refl s with instances := .modify same }

theorem rewriteInstance {id : UUID} {i i' : Instance} (row : s.instances.lookup id = some i)
    (same : i'.slug = i.slug) :
    Narrowed s { s with instances := s.instances.modify id fun _ => i' } := by
  refine { refl s with instances := fun k v hv => ?_ }
  rcases Table.lookup_modify_cases hv with ⟨rfl, v₀, hv₀, rfl⟩ | ⟨-, hv⟩
  · exact ⟨i, row, same⟩
  · exact ⟨v, hv, rfl⟩

theorem rewriteMembers {members : Table UUID Member}
    (h : Table.Within (fun m => (m.instanceId, m.username, m.role, m.action)) s.members members) :
    Narrowed s { s with members } := { refl s with members := h }

theorem deleteResource (job : JobExecution) : Narrowed s (s.deleteResource job) := by
  unfold Store.deleteResource
  split
  · rename_i type id _ _
    cases type with
    | «instance» => exact { refl s with instances := .erase }
    | template => exact { refl s with templates := .erase }
    | templateAssignment => exact { refl s with assignments := .erase }
    | workspace => exact { refl s with workspaces := .erase }
  · exact refl s

theorem finalizeMembers (id : UUID) (memberIds : List UUID) :
    Narrowed s (s.finalizeMembers id memberIds) :=
  { refl s with
    members := .trans .deleteWhere (.updateWhere fun _ => rfl)
    workspaces := .deleteWhere }

theorem finalizeUpdate (id : UUID) (memberIds : List UUID) (name : String) (c : ExecutionClaim)
    (job : JobExecution) : Narrowed s ((Store.finalizeMembers { s with
      instances := s.instances.modify id fun i => { i with argocdApplicationName := some name } }
      id memberIds).settleExecution c job) := by
  have hname : Narrowed s { s with
      instances := s.instances.modify id fun i => { i with argocdApplicationName := some name } } :=
    rewriteInstances fun _ => rfl
  exact (hname.trans (finalizeMembers id memberIds)).trans (settleExecution c job)

theorem mutated {job : JobExecution} {m : Mutation} (h : Mutated s job m s') : Narrowed s s' := by
  cases h with
  | none | keepWorkspace => exact refl s
  | storeApplicationName row | promotePassword row | markStopped row =>
      exact rewriteInstance (Store.ownedInstance_eq_some.mp row).2.2 rfl
  | markCreated => exact modifyLifecycle _ _ _
  | failMembers | deferMembers => exact rewriteMembers (.updateWhere fun _ => rfl)
  | convergeWorkspace _ _ _ stored =>
      subst stored
      exact { refl s with workspaces := .modify fun _ => rfl }

theorem committed {β : Type} {t : Transaction β} {a : β} (hc : Committed s t a s') :
    Narrowed s s' := by
  cases hc with
  | claimRefused | heartbeatStale | advanceStale | completeStale | deferStale | failStale
  | retryRefused | retryNamed | bootstrapStale | bootstrapKept | finalizeStale | startedStale
  | removeStale | stateKept | deploymentApplied | deploymentMissing | removeAssignmentStale
  | remoteIdsStale => exact refl s
  | claimExecution | retryReclaimed => exact put _ _ _ _
  | heartbeatExecution => exact modifyJob _ _
  | advanceExecution _ hm | completeExecution _ hm | deferExecution _ hm | failExecution _ hm =>
      exact (mutated hm).trans (put _ _ _ _)
  | completeDeletion _ hm =>
      exact (mutated hm).trans ((modifyJob _ _).trans (deleteResource _))
  | bootstrapDrawn | storeStartedApplication | recordInstanceState =>
      exact rewriteInstances fun _ => rfl
  | claimMembers | claimCleanup => exact rewriteMembers (.updateWhere fun _ => rfl)
  | finalizeUpdate _ _ final =>
      exact final ▸ finalizeUpdate _ _ _ _ _
  | finalizeAgain _ _ final =>
      exact .trans (final ▸ finalizeUpdate _ _ _ _ _) (stageJob _ _ _ _ _)
  | removeLocalConfiguration =>
      exact { refl s with
        instances := .erase, members := .deleteWhere, assignments := .deleteWhere
        workspaces := .deleteWhere, allocations := .erase }
  | prepareDeployment | storeTemplateRemoteIds | finishDeployment =>
      exact { refl s with nextId := Nat.le_refl _ }
  | removeLocalAssignment =>
      exact { refl s with assignments := .erase, workspaces := .deleteWhere }
  | storeWorkspaceRemoteIds => exact { refl s with workspaces := .modify fun _ => rfl }

end Narrowed

end CoderManager
