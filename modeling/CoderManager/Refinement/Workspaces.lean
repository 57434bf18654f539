import CoderManager.Refinement.Lifecycles

/-!
# Workspace rows

Which requests write a workspace, and what they write. Every other request
leaves the workspaces as they are, or schedules a deletion.
-/
namespace CoderManager
open Tables

/-- The columns beside the lifecycle. -/
def Workspace.columns (w : Workspace) : Workspace :=
  { w with toLifecycle := ⟨.created, .success, none, none⟩ }

namespace Workspace
variable {w w' : Workspace}

theorem instanceId_of_columns (h : w'.columns = w.columns) : w'.instanceId = w.instanceId :=
  congrArg (·.instanceId) h

theorem parameters_of_columns (h : w'.columns = w.columns) : w'.parameters = w.parameters :=
  congrArg (·.parameters) h

theorem parametersRevision_of_columns (h : w'.columns = w.columns) :
    w'.parametersRevision = w.parametersRevision := congrArg (·.parametersRevision) h

theorem appliedParametersRevision_of_columns (h : w'.columns = w.columns) :
    w'.appliedParametersRevision = w.appliedParametersRevision :=
  congrArg (·.appliedParametersRevision) h

end Workspace

def WorkspaceFields.created (payload : WorkspaceFields) (instanceId templateId memberId jobId : UUID)
    (parameters : List (String × String)) : Workspace where
  action := .creating
  status := .pending
  jobId := some jobId
  step := some .workspaceCreateStep01
  name := payload.name
  instanceId := instanceId
  templateId := templateId
  memberId := memberId
  imageId := payload.imageId
  modules := payload.modules
  parameters := parameters
  parametersRevision := 0
  appliedParametersRevision := none
  coderWorkspaceId := none
  coderWorkspaceBuildId := none

def WorkspaceFields.updated (payload : WorkspaceFields) (jobId : UUID)
    (parameters : List (String × String)) (w : Workspace) : Workspace :=
  { w with
    action := .updating, status := .pending, jobId := some jobId
    step := some .workspaceUpdateStep01
    name := payload.name, imageId := payload.imageId, modules := payload.modules
    parameters := if sameParameters w.parameters parameters then w.parameters else parameters
    parametersRevision := if sameParameters w.parameters parameters then w.parametersRevision
      else w.parametersRevision + 1 }

/-- Every workspace is an old one with the same columns, left alone or scheduled
for its deletion. -/
def Store.Undisturbed (s s' : Store) : Prop := ∀ id w', s'.workspaces.lookup id = some w' →
  ∃ w, s.workspaces.lookup id = some w ∧ w'.columns = w.columns ∧
    (w'.toLifecycle = w.toLifecycle ∨ w'.action = .deleting ∧ w'.status = .pending)

namespace Store.Undisturbed
variable {s s' : Store}

theorem of_eq (same : s'.workspaces = s.workspaces) : s.Undisturbed s' := by
  intro id w' hw
  exact ⟨w', same ▸ hw, rfl, .inl rfl⟩

theorem workspaces_requestInstanceUpdate (s : Store) (id : UUID) (i : Instance) :
    (s.requestInstanceUpdate id i).workspaces = s.workspaces := by
  unfold Store.requestInstanceUpdate
  split <;> rfl

theorem requestWorkspaceDeletion (s : Store) (id : UUID) :
    s.Undisturbed (s.stageJob .workspaceDelete .deleting .workspace id .workspaceDeleteStep01).2 := by
  intro id' w' hw
  rcases Table.lookup_modify_cases hw with ⟨rfl, w, hrow, rfl⟩ | ⟨-, hrow⟩
  · exact ⟨w, hrow, rfl, .inr ⟨rfl, rfl⟩⟩
  · exact ⟨w', hrow, rfl, .inl rfl⟩

end Store.Undisturbed

/-- What a request does to the workspaces. -/
inductive Configured (s s' : Store) : Prop
  | undisturbed (same : s.Undisturbed s')
  | created {payload : WorkspaceFields} {instanceId templateId memberId : UUID}
      {parameters : List (String × String)}
      (resolved : resolveParameters (s.userParameters templateId) payload.parameters none =
        .ok parameters)
      (row : s'.workspaces = s.workspaces.insert s.nextId
        (payload.created instanceId templateId memberId (s.nextId + 1) parameters))
  | updated {payload : WorkspaceFields} {id : UUID} {w : Workspace}
      {parameters : List (String × String)} (found : s.workspaces.lookup id = some w)
      (idle : w.status.inProgress = false)
      (resolved : resolveParameters (s.userParameters w.templateId) payload.parameters
        (some w.parameters) = .ok parameters)
      (row : s'.workspaces.lookup id = some (payload.updated s.nextId parameters w))
      (others : ∀ id', id' ≠ id → s'.workspaces.lookup id' = s.workspaces.lookup id')

theorem Store.workspaces_stageUpdate (s : Store) (f : Workspace → Workspace) (id id' : UUID) :
    (stageJob { s with workspaces := s.workspaces.modify id f } .workspaceUpdate .updating .workspace
      id .workspaceUpdateStep01).2.workspaces.lookup id' =
    if id' = id then (s.workspaces.lookup id).map fun w => { f w with
      toLifecycle := ⟨.updating, .pending, some s.nextId, some .workspaceUpdateStep01⟩ }
    else s.workspaces.lookup id' := by
  change (Table.modify (Table.modify _ _ _) _ _).lookup _ = _
  by_cases hid : id' = id
  · subst hid
    rw [if_pos rfl, Table.lookup_modify_self, Table.lookup_modify_self, Option.map_map]
    rfl
  · rw [if_neg hid, Table.lookup_modify_ne _ _ hid, Table.lookup_modify_ne _ _ hid]

def Request.convergesWorkspace : Request → Bool
  | .createWorkspace _ _ _ _ | .updateWorkspace _ _ => true
  | _ => false

theorem Accepted.undisturbed {s s' : Store} {r : Request} (h : Accepted s r s')
    (other : r.convergesWorkspace = false) : s.Undisturbed s' := by
  cases h with
  | createWorkspace | updateWorkspace | keepWorkspace => cases other
  | requestWorkspaceDeletion => exact .requestWorkspaceDeletion s _
  | createMember | updateMemberRole | requestMemberDeletion =>
      exact .of_eq (Store.Undisturbed.workspaces_requestInstanceUpdate _ _ _)
  | updateTemplate | deleteTemplate => exact .of_eq (by simp)
  | @requestTemplateSync id => exact .of_eq (s.workspaces_discardCurrentJob id)
  | _ => exact .of_eq rfl

theorem Accepted.configured {s s' : Store} {r : Request} (h : Accepted s r s') :
    Configured s s' := by
  by_cases other : r.convergesWorkspace = false
  · exact .undisturbed (h.undisturbed other)
  · cases h with
    | createWorkspace row settled source owner own joined deployed image modules resolved =>
        exact .created resolved rfl
    | @updateWorkspace id payload w i t workspaces f row idle place settled changed same deployed source
        image modules edited resolved =>
        obtain ⟨parameters, hresolved, rfl⟩ := resolved
        subst changed
        refine .updated row idle hresolved ?_ fun id' hid => ?_
        · rw [Store.workspaces_stageUpdate, if_pos rfl, row]
          rfl
        · rw [Store.workspaces_stageUpdate, if_neg hid]
    | keepWorkspace => exact .undisturbed (.of_eq rfl)
    | _ => exact absurd rfl other

/-- What a worker does to the applied revision of a workspace: nothing, or it
completes the job of the workspace. -/
inductive Converged (s : Store) (id : UUID) (w w' : Workspace) :
    {β : Type} → Transaction β → β → Prop
  | kept {β : Type} {t : Transaction β} {a : β}
      (applied : w'.appliedParametersRevision = w.appliedParametersRevision)
      (settled : w'.status = .success → w.status = .success) : Converged s id w w' t a
  | completed {c : ExecutionClaim} {job : JobExecution} {workspaceId buildId : Option UUID}
      {applyParameters : Bool} (owned : s.ownedExecution c = some job)
      (type : job.resourceType = some .workspace) (resource : job.resourceId = some id)
      (stored : w'.appliedParametersRevision =
        if applyParameters then some w.parametersRevision else w.appliedParametersRevision) :
      Converged s id w w'
        (.completeExecution c (.convergeWorkspace workspaceId buildId applyParameters) false) true

section Rewrites
variable {s s₁ : Store} {id : UUID} {w' : Workspace} {job : JobExecution} {f : Lifecycle → Lifecycle}

theorem Store.workspaces_modifyResource_cases
    (row' : (s.modifyResource job f).workspaces.lookup id = some w') :
    ∃ w, s.workspaces.lookup id = some w ∧ (w' = w ∨
      (job.lease.owner = some (.workspace, some id) ∧
        w' = { w with toLifecycle := f w.toLifecycle })) := by
  unfold Store.modifyResource at row'
  split at row'
  · rename_i type id' htype hid
    cases type with
    | workspace =>
        rcases Table.lookup_modify_cases row' with ⟨rfl, w, hw, rfl⟩ | ⟨-, hw⟩
        · exact ⟨w, hw, .inr ⟨JobExecution.lease_owner.mpr ⟨htype, hid⟩, rfl⟩⟩
        · exact ⟨w', hw, .inl rfl⟩
    | «instance» | template | templateAssignment => exact ⟨w', row', .inl rfl⟩
  · exact ⟨w', row', .inl rfl⟩

theorem Mutated.workspaces {m : Mutation} (h : Mutated s job m s₁)
    (other : ∀ workspaceId buildId applyParameters,
      m ≠ .convergeWorkspace workspaceId buildId applyParameters) :
    s₁.workspaces = s.workspaces := by
  cases h with
  | convergeWorkspace => exact absurd rfl (other _ _ _)
  | keepWorkspace => rfl
  | _ => rfl

theorem Mutated.converged_row {workspaceId buildId : Option UUID} {applyParameters : Bool}
    (h : Mutated s job (.convergeWorkspace workspaceId buildId applyParameters) s₁)
    (type : job.resourceType = some .workspace) (resource : job.resourceId = some id)
    (row : s₁.workspaces.lookup id = some w') :
    ∃ w, s.workspaces.lookup id = some w ∧ w'.appliedParametersRevision =
      if applyParameters then some w.parametersRevision else w.appliedParametersRevision := by
  cases h with
  | convergeWorkspace _ resource' _ stored =>
      obtain rfl := Option.some.inj (resource.symm.trans resource')
      subst stored
      obtain ⟨w, hw, rfl⟩ := Option.map_eq_some_iff.mp ((Table.lookup_modify_self _ _ _).symm.trans row)
      exact ⟨w, hw, rfl⟩
  | keepWorkspace other =>
      rcases other with hother | hother
      · exact absurd type hother
      · rw [resource] at hother
        cases hother

theorem Mutated.other_row {m : Mutation} (h : Mutated s job m s₁)
    (other : job.resourceType = some .workspace → job.resourceId ≠ some id)
    (row : s₁.workspaces.lookup id = some w') : s.workspaces.lookup id = some w' := by
  cases h with
  | convergeWorkspace type resource =>
      refine (Table.lookup_modify_ne _ _ ?_).symm.trans row
      rintro rfl
      exact other type resource
  | _ => exact row

theorem Store.owned_workspace_step {c : ExecutionClaim}
    (hl : Leases.Consistent catalogue s.ledger) (owned : s.ownedExecution c = some job)
    (owner : job.lease.owner = some (.workspace, some id)) :
    c.step = .workspaceCreateStep01 ∨ c.step = .workspaceUpdateStep01 ∨
      c.step = .workspaceDeleteStep01 := by
  obtain ⟨row, -⟩ := ownedExecution_eq_some.mp owned
  have hmade : job.name.resourceType = some .workspace :=
    hl.made c.jobId job.lease (.workspace, some id) (by simp [ledger, row]) owner
  have hmem := owned_mem_steps hl owned
  revert hmade hmem
  cases job.name <;> simp [JobName.resourceType, JobName.steps]
  all_goals
    intro h
    simp [h]

end Rewrites

open Store in
/-- Where a workspace row comes from when a worker commits. -/
theorem Committed.converged {s s' : Store} {β : Type} {t : Transaction β} {a : β} {h : WorkerHistory}
    (hc : Committed s t a s') (hg : Discipline.transaction h t)
    (hl : Leases.Consistent catalogue s.ledger) {id : UUID} {w' : Workspace}
    (row' : s'.workspaces.lookup id = some w') :
    ∃ w, s.workspaces.lookup id = some w ∧ Converged s id w w' t a := by
  have old : s.workspaces.lookup id = some w' →
      ∃ w, s.workspaces.lookup id = some w ∧ Converged s id w w' t a :=
    fun hw => ⟨w', hw, .kept rfl fun h => h⟩
  -- The job of the workspace is written with another status than success.
  have put : ∀ {s₁ : Store} {job : JobExecution} {jobId : UUID} {g : JobExecution → JobExecution}
      {f : Lifecycle → Lifecycle}, s₁.workspaces = s.workspaces →
      (∀ r, (f r).status ≠ .success) →
      ((s₁.modifyJob jobId g).modifyResource job f).workspaces.lookup id = some w' →
      ∃ w, s.workspaces.lookup id = some w ∧ Converged s id w w' t a := by
    intro s₁ job jobId g f same hstatus hrow
    obtain ⟨w, hw, rfl | ⟨-, rfl⟩⟩ := workspaces_modifyResource_cases hrow
    · exact old (same ▸ hw)
    · exact ⟨w, same ▸ hw, .kept rfl fun h => absurd h (hstatus _)⟩
  -- Finalising an update settles the job of an instance.
  have finalized : ∀ {c : ExecutionClaim} {job : JobExecution} {s₁ : Store} {memberIds : List UUID}
      {name : String} {id' : UUID} {i : Instance}, s.ownedInstance job = some (id', i) →
      s₁ = (Store.finalizeMembers { s with
        instances := s.instances.modify id' fun i => { i with argocdApplicationName := some name } }
        id' memberIds).settleExecution c job → s₁.workspaces.lookup id = some w' →
      ∃ w, s.workspaces.lookup id = some w ∧ Converged s id w w' t a := by
    intro c job s₁ memberIds name id' i row final hrow
    subst final
    obtain ⟨w, hw, rfl | ⟨howner, -⟩⟩ := workspaces_modifyResource_cases hrow
    · exact old (Table.lookup_deleteWhere_some.mp hw).1
    · have htype := (ownedInstance_eq_some.mp row).1
      rw [(JobExecution.lease_owner.mp howner).1] at htype
      cases htype
  cases hc with
  | claimRefused | heartbeatStale | advanceStale | completeStale | deferStale | failStale
  | retryRefused | retryNamed | bootstrapStale | bootstrapKept | finalizeStale | startedStale
  | removeStale | stateKept | deploymentApplied | deploymentMissing | removeAssignmentStale
  | remoteIdsStale | heartbeatExecution | claimMembers | claimCleanup | prepareDeployment
  | storeTemplateRemoteIds | finishDeployment | bootstrapDrawn | storeStartedApplication
  | recordInstanceState => exact old row'
  | claimExecution => exact put rfl (fun _ => by simp) row'
  | retryReclaimed => exact put rfl (fun _ => by simp) row'
  | advanceExecution owned hmut =>
      refine put (hmut.workspaces ?_) (fun _ => by simp) row'
      rintro workspaceId buildId applyParameters rfl
      cases hg.2.2
  | deferExecution owned hmut =>
      refine put (hmut.workspaces ?_) (fun _ => by simp) row'
      rintro workspaceId buildId applyParameters rfl
      cases hg.2
  | failExecution owned hmut =>
      refine put (hmut.workspaces ?_) (fun _ => by simp) row'
      rintro workspaceId buildId applyParameters rfl
      cases hg.2
  | @completeExecution c mutate job s₁ owned hmut =>
      obtain ⟨-, hconcl⟩ := hg
      obtain ⟨w₁, hw₁, hput⟩ := workspaces_modifyResource_cases row'
      have hrow : s₁.workspaces.lookup id = some w₁ := hw₁
      by_cases howner : job.lease.owner = some (.workspace, some id)
      · obtain ⟨htype, hid⟩ := JobExecution.lease_owner.mp howner
        have hstep := owned_workspace_step hl owned howner
        cases hconcl with
        | convergeWorkspace =>
            obtain ⟨w, hw, hstored⟩ := hmut.converged_row htype hid hrow
            refine ⟨w, hw, .completed owned htype hid ?_⟩
            rcases hput with rfl | ⟨-, rfl⟩
            · exact hstored
            · exact hstored
        | bootstrapAdmin step | stopInstance step | createTemplate step =>
            rw [step] at hstep
            simp at hstep
        | sync step => rcases step with step | step <;> rw [step] at hstep <;> simp at hstep
      · obtain rfl : w' = w₁ := hput.resolve_right fun h => howner h.1
        exact old (hmut.other_row (fun htype hid => howner (JobExecution.lease_owner.mpr
          ⟨htype, hid⟩)) hrow)
  | @completeDeletion c mutate job s₁ owned hmut =>
      have hne : ¬(job.resourceType = some .workspace ∧ job.resourceId = some id) := by
        rintro ⟨htype, hid⟩
        rw [deleteResource, htype, hid] at row'
        exact (Table.lookup_erase_some.mp row').1 rfl
      have hrow : s₁.workspaces.lookup id = some w' := by
        unfold deleteResource at row'
        split at row'
        · rename_i type id' _ _
          cases type with
          | workspace => exact (Table.lookup_erase_some.mp row').2
          | «instance» | template | templateAssignment => exact row'
        · exact row'
      exact old (hmut.other_row (fun htype hid => hne ⟨htype, hid⟩) hrow)
  | finalizeUpdate owned row final => exact finalized row final row'
  | finalizeAgain owned row final => exact finalized row final row'
  | removeLocalConfiguration => exact old (Table.lookup_deleteWhere_some.mp row').1
  | removeLocalAssignment => exact old (Table.lookup_deleteWhere_some.mp row').1
  | storeWorkspaceRemoteIds =>
      rcases Table.lookup_modify_cases row' with ⟨rfl, w, hw, rfl⟩ | ⟨-, hw⟩
      · exact ⟨w, hw, .kept rfl fun h => h⟩
      · exact old hw

end CoderManager
