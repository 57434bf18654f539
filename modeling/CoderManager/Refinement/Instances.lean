import CoderManager.Refinement.Lifecycles

/-!
# Instance rows under requests

A request creates an instance, gives it a new job, or leaves its row as it is.
-/
namespace CoderManager
open Tables Leases

/-- A request gives an instance another job: its deletion, or an update, a start
or a stop, which a failed creation or a deletion does not admit. -/
inductive Restarted (s : Store) (id : UUID) (i : Instance) : Request → Lifecycle → Prop
  | deletion {step : StepName} (alive : i.action ≠ .deleting)
      (settled : i.status = .success ∨ (i.action = .creating ∧ i.status = .error))
      (entry : (step = .instanceDeleteStep02 ∧ i.action = .creating ∧ i.status = .error ∧
          i.passwordEnc = none) ∨
        (step = .instanceDeleteStep01 ∧
          ¬(i.action = .creating ∧ i.status = .error ∧ i.passwordEnc = none))) :
      Restarted s id i (.requestInstanceDeletion id) ⟨.deleting, .pending, some s.nextId, some step⟩
  | power {r : Request} {action : Action} {step : StepName} (jobId : UUID)
      (fresh : s.nextId ≤ jobId) (other : ∀ id, r ≠ .requestInstanceDeletion id)
      (staged : (action = .updating ∧ step = .instanceUpdateStep01) ∨
        (action = .starting ∧ step = .instanceStartStep01) ∨
        (action = .stopping ∧ step = .instanceStopStep01))
      (settled : i.status = .success ∨
        (i.status = .error ∧ i.action ≠ .creating ∧ i.action ≠ .deleting)) :
      Restarted s id i r ⟨action, .pending, some jobId, some step⟩

def newInstance (application slug : String) (jobId : UUID) : Instance where
  action := .creating
  status := .pending
  jobId := some jobId
  step := some .instanceCreateStep01
  application := application
  slug := slug
  state := .stopped
  passwordEnc := none
  passwordCandidateEnc := none
  argocdApplicationName := none

namespace Store
variable {s s₁ : Store} {id id' : UUID} {i' : Instance}

theorem stageInstance_cases {name : JobName} {action : Action} {step : StepName}
    (row' : (s₁.stageJob name action .instance id step).2.instances.lookup id' = some i')
    (same : s₁.instances = s.instances) :
    ∃ i, s.instances.lookup id' = some i ∧ (i' = i ∨ (id' = id ∧
      i' = { i with toLifecycle := ⟨action, .pending, some s₁.nextId, some step⟩ })) := by
  rcases Table.lookup_modify_cases row' with ⟨rfl, i, hi, rfl⟩ | ⟨-, hi⟩
  · exact ⟨i, same ▸ hi, .inr ⟨rfl, rfl⟩⟩
  · exact ⟨i', same ▸ hi, .inl rfl⟩

theorem requestInstanceUpdate_cases {i₀ : Instance}
    (row' : (s₁.requestInstanceUpdate id i₀).instances.lookup id' = some i')
    (same : s₁.instances = s.instances) :
    ∃ i, s.instances.lookup id' = some i ∧ (i' = i ∨ (id' = id ∧
      ¬(i₀.action = .updating ∧ i₀.status.inProgress = true) ∧ i' = { i with
        toLifecycle := ⟨.updating, .pending, some s₁.nextId, some .instanceUpdateStep01⟩ })) := by
  unfold requestInstanceUpdate at row'
  split at row'
  · exact ⟨i', same ▸ row', .inl rfl⟩
  · rename_i hidle
    obtain ⟨i, hi, h⟩ := stageInstance_cases row' same
    refine ⟨i, hi, h.imp_right fun ⟨hid, hrow⟩ => ⟨hid, ?_, hrow⟩⟩
    simpa using hidle

end Store

open Store in
/-- Where an instance row comes from when a request is accepted. -/
theorem Accepted.instance_cases {s s' : Store} {r : Request} (h : Accepted s r s') {id : UUID}
    {i' : Instance} (row' : s'.instances.lookup id = some i') :
    (∃ application slug, r = .createInstance application slug ∧ id = s.nextId ∧
      i' = newInstance application slug.text (s.nextId + 1)) ∨
    ∃ i, s.instances.lookup id = some i ∧
      (i' = i ∨ ∃ l, i' = { i with toLifecycle := l } ∧ Restarted s id i r l) := by
  cases h with
  | createInstance =>
      rcases Table.lookup_insert_cases row' with ⟨hid, rfl⟩ | ⟨-, hi⟩
      · exact .inl ⟨_, _, rfl, hid, rfl⟩
      · exact .inr ⟨i', hi, .inl rfl⟩
  | requestInstanceDeletion row _ settled alive entry =>
      obtain ⟨i, hi, hrow | ⟨rfl, hrow⟩⟩ := stageInstance_cases (s := s) row' rfl
      · exact .inr ⟨i, hi, .inl hrow⟩
      · obtain rfl := Option.some.inj (row.symm.trans hi)
        exact .inr ⟨_, hi, .inr ⟨_, hrow, .deletion alive settled entry⟩⟩
  | requestSync idle =>
      obtain ⟨i, hi, hrow | ⟨rfl, hrow⟩⟩ := stageInstance_cases (s := s) row' rfl
      · exact .inr ⟨i, hi, .inl hrow⟩
      · obtain ⟨row, -, alive, settled⟩ := idle
        obtain rfl := Option.some.inj (row.symm.trans hi)
        refine .inr ⟨_, hi, .inr ⟨_, hrow, .power _ (Nat.le_refl _) (fun _ h => nomatch h)
          (.inl ⟨rfl, rfl⟩) (settled.imp_right fun h => ⟨h.1, h.2, alive⟩)⟩⟩
  | requestStart idle =>
      obtain ⟨i, hi, hrow | ⟨rfl, hrow⟩⟩ := stageInstance_cases (s := s) row' rfl
      · exact .inr ⟨i, hi, .inl hrow⟩
      · obtain ⟨row, -, alive, settled⟩ := idle
        obtain rfl := Option.some.inj (row.symm.trans hi)
        refine .inr ⟨_, hi, .inr ⟨_, hrow, .power _ (Nat.le_refl _) (fun _ h => nomatch h)
          (.inr (.inl ⟨rfl, rfl⟩)) (settled.imp_right fun h => ⟨h.1, h.2, alive⟩)⟩⟩
  | requestStop idle =>
      obtain ⟨i, hi, hrow | ⟨rfl, hrow⟩⟩ := stageInstance_cases (s := s) row' rfl
      · exact .inr ⟨i, hi, .inl hrow⟩
      · obtain ⟨row, -, alive, settled⟩ := idle
        obtain rfl := Option.some.inj (row.symm.trans hi)
        refine .inr ⟨_, hi, .inr ⟨_, hrow, .power _ (Nat.le_refl _) (fun _ h => nomatch h)
          (.inr (.inr ⟨rfl, rfl⟩)) (settled.imp_right fun h => ⟨h.1, h.2, alive⟩)⟩⟩
  | createKubernetesProvider row settled =>
      obtain ⟨i, hi, hrow | ⟨rfl, hrow⟩⟩ := stageInstance_cases (s := s) row' rfl
      · exact .inr ⟨i, hi, .inl hrow⟩
      · obtain rfl := Option.some.inj (row.symm.trans hi)
        exact .inr ⟨_, hi, .inr ⟨_, hrow, .power _ (Nat.le_refl _) (fun _ h => nomatch h)
          (.inl ⟨rfl, rfl⟩) (.inl settled)⟩⟩
  | createDatabase | updateDatabase | deleteDatabase | requestDatabaseSync | keepMemberRole
  | createTemplate | keepTemplate | createImage | deleteImage | createUserParameter
  | createSystemParameter | updateParameter | updateSystemValue | deleteUserParameter
  | deleteSystemParameter | putAssignment | keepAssignment | requestAssignmentDeletion
  | keepAssignmentDeletion | createWorkspace | updateWorkspace | keepWorkspace
  | requestWorkspaceDeletion => exact .inr ⟨i', row', .inl rfl⟩
  | createMember available | updateMemberRole available | requestMemberDeletion available =>
      obtain ⟨i, hi, hrow | ⟨rfl, hbusy, hrow⟩⟩ := requestInstanceUpdate_cases (s := s) row' rfl
      · exact .inr ⟨i, hi, .inl hrow⟩
      · obtain ⟨row, -, hopen⟩ := available
        obtain rfl := Option.some.inj (row.symm.trans hi)
        have settled := hopen.resolve_right fun h => hbusy ⟨h.1, h.2.2⟩
        exact .inr ⟨_, hi, .inr ⟨_, hrow, .power _ (by simp) (fun _ h => nomatch h)
          (.inl ⟨rfl, rfl⟩) (.inl settled)⟩⟩
  | updateTemplate | deleteTemplate | requestTemplateSync =>
      refine .inr ⟨i', ?_, .inl rfl⟩
      simpa [stageJob, modifyLifecycle, addJobExecution, drawId] using row'

/-- What a move does to an instance row: a request creates it or gives it another
job, or a worker goes on with its job. -/
theorem Moved.instance_cases {w w' : World} {t : Trace} {what : WhatHappened}
    (hm : Moved w t what w') (hs : Sound w.store) {id : UUID} {i' : Instance}
    (row' : w'.store.instances.lookup id = some i') :
    (∃ application slug, what = .changed (.request (.createInstance application slug)) ∧
      id = w.store.nextId ∧ i' = newInstance application slug.text (w.store.nextId + 1)) ∨
    ∃ i, w.store.instances.lookup id = some i ∧
      (Worked .instance i.toLifecycle i'.toLifecycle ∨
        ∃ r, what = .changed (.request r) ∧ Restarted w.store id i r i'.toLifecycle) := by
  rcases hm.store_cases with h | ⟨now, h⟩ | ⟨r, rfl, h⟩ | ⟨worker, β, tr, a, -, allowed, h⟩
  · exact .inr ⟨i', h ▸ row', .inl (.same _)⟩
  · exact .inr ⟨i', by simpa [h] using row', .inl (.same _)⟩
  · rcases h.instance_cases row' with ⟨application, slug, rfl, hid, hrow⟩ |
        ⟨i, hi, rfl | ⟨l, rfl, hrestart⟩⟩
    · exact .inl ⟨application, slug, rfl, hid, hrow⟩
    · exact .inr ⟨i', hi, .inl (.same _)⟩
    · exact .inr ⟨i, hi, .inr ⟨r, rfl, hrestart⟩⟩
  · obtain ⟨i, hi, -⟩ := (Narrowed.committed h).instances id i' row'
    obtain ⟨r, hr, hworked⟩ := h.worked allowed hs.ledger (Store.lifecycle_instance row')
    rw [Store.lifecycle_instance hi, Option.some.injEq] at hr
    exact .inr ⟨i, hi, .inl (hr ▸ hworked)⟩

def InstancesLater (R : Instance → Instance → Prop) (w w' : World) : Prop :=
  w.store.nextId ≤ w'.store.nextId ∧ ∀ id i', id < w.store.nextId →
    w'.store.instances.lookup id = some i' → ∃ i, w.store.instances.lookup id = some i ∧ R i i'

/-- What every move relates holds between an instance row and every later state of
it. -/
theorem run_instances {R : Instance → Instance → Prop} (refl : ∀ i, R i i)
    (trans : ∀ {i i' i''}, R i i' → R i' i'' → R i i'')
    (move : ∀ w t what w', Run w t → Moved w t what w' → ∀ id i i',
      w.store.instances.lookup id = some i → w'.store.instances.lookup id = some i' → R i i')
    (steps more : List Step) {id : UUID} {i i' : Instance}
    (row : (run steps).world.store.instances.lookup id = some i)
    (row' : (run (steps ++ more)).world.store.instances.lookup id = some i') : R i i' := by
  have hlater : InstancesLater R (run steps).world (run (steps ++ more)).world := by
    refine run_later (Q := InstancesLater R) ?_ ?_ ?_ steps more
    · exact fun w => ⟨Nat.le_refl _, fun id i _ row => ⟨i, row, refl i⟩⟩
    · intro w w' w'' h h'
      refine ⟨Nat.le_trans h.1 h'.1, fun id i'' hlt row'' => ?_⟩
      obtain ⟨i', row', hr'⟩ := h'.2 id i'' (Nat.lt_of_lt_of_le hlt h.1) row''
      obtain ⟨i, row, hr⟩ := h.2 id i' hlt row'
      exact ⟨i, row, trans hr hr'⟩
    · intro w t what w' hrun hm
      refine ⟨hm.nextId_le hrun.sound, fun id i' hlt row' => ?_⟩
      rcases hm.instance_cases hrun.sound row' with ⟨-, -, -, rfl, -⟩ | ⟨i, row, -⟩
      · exact absurd hlt (Nat.lt_irrefl _)
      · exact ⟨i, row, move w t what w' hrun hm id i i' row row'⟩
  obtain ⟨i₀, row₀, hr⟩ :=
    hlater.2 id i' ((run_reaches steps).sound.grounded.instances id i row) row'
  obtain rfl : i = i₀ := Option.some.inj (row.symm.trans row₀)
  exact hr

@[simp] theorem Store.jobs_deleteResource (s : Store) (job : JobExecution) :
    (s.deleteResource job).jobs = s.jobs := by
  unfold Store.deleteResource
  split
  · rename_i type id _ _
    cases type <;> rfl
  · rfl

theorem Mutated.jobs_eq {s s' : Store} {job : JobExecution} {m : Mutation} (h : Mutated s job m s') :
    s'.jobs = s.jobs := by
  cases h with
  | markCreated => exact Store.jobs_modifyLifecycle _ _ _ _
  | _ => rfl

def AdvancesJob (s : Store) (j : UUID) (step : StepName) : {β : Type} → Transaction β → β → Prop
  | _, .advanceExecution c _ next _, true =>
      c.jobId = j ∧ next = step ∧ (s.ownedExecution c).isSome = true
  | _, _, _ => False

/-- Jobs that a worker's transaction leaves behind were there, at the same step
unless they were moved on, or continue the update of an instance. -/
theorem Committed.jobs_origin {s s' : Store} {β : Type} {t : Transaction β} {a : β}
    (hc : Committed s t a s') {j : UUID} {job' : JobExecution}
    (row' : s'.jobs.lookup j = some job') :
    (∃ job, s.jobs.lookup j = some job ∧ (job'.step = job.step ∨ AdvancesJob s j job'.step t a)) ∨
      (j = s.nextId ∧ job'.name = .instanceUpdate ∧ job'.resourceType = some .instance) := by
  have modified : ∀ {id : UUID} {g : JobExecution → JobExecution},
      (s.jobs.modify id g).lookup j = some job' → (∀ job, (g job).step = job.step) →
      ∃ job, s.jobs.lookup j = some job ∧ (job'.step = job.step ∨ AdvancesJob s j job'.step t a) := by
    intro id g h hg
    rcases Table.lookup_modify_cases h with ⟨rfl, job, hjob, rfl⟩ | ⟨-, hjob⟩
    · exact ⟨job, hjob, .inl (hg job)⟩
    · exact ⟨job', hjob, .inl rfl⟩
  cases hc with
  | claimRefused | heartbeatStale | advanceStale | completeStale | deferStale | failStale
  | retryRefused | retryNamed | bootstrapStale | bootstrapKept | finalizeStale | startedStale
  | removeStale | stateKept | deploymentApplied | deploymentMissing | removeAssignmentStale
  | remoteIdsStale | bootstrapDrawn | claimMembers | claimCleanup | storeStartedApplication
  | recordInstanceState | prepareDeployment | storeTemplateRemoteIds | finishDeployment
  | storeWorkspaceRemoteIds => exact .inl ⟨job', row', .inl rfl⟩
  | @claimExecution jobId job row =>
      rw [Store.jobs_modifyResource] at row'
      rcases Table.lookup_modify_cases row' with ⟨rfl, job₀, hjob₀, rfl⟩ | ⟨-, hjob⟩
      · exact .inl ⟨job, row, .inl rfl⟩
      · exact .inl ⟨job', hjob, .inl rfl⟩
  | retryReclaimed =>
      rw [Store.jobs_modifyResource] at row'
      exact .inl (modified row' fun _ => rfl)
  | heartbeatExecution => exact .inl (modified row' fun _ => rfl)
  | @advanceExecution c task step m job s₁ owned hmut =>
      simp only [Store.jobs_modifyResource, Store.modifyJob, hmut.jobs_eq] at row'
      rcases Table.lookup_modify_cases row' with ⟨rfl, job, hjob, rfl⟩ | ⟨-, hjob⟩
      · exact .inl ⟨job, hjob, .inr ⟨rfl, rfl, by simp [owned]⟩⟩
      · exact .inl ⟨job', hjob, .inl rfl⟩
  | completeExecution _ hmut | deferExecution _ hmut | failExecution _ hmut =>
      simp only [Store.settleExecution, Store.releaseExecution, Store.jobs_modifyResource,
        Store.modifyJob, hmut.jobs_eq] at row'
      exact .inl (modified row' fun _ => rfl)
  | completeDeletion _ hmut =>
      simp only [Store.jobs_deleteResource, Store.modifyJob, hmut.jobs_eq] at row'
      exact .inl (modified row' fun _ => rfl)
  | finalizeUpdate _ _ final =>
      simp only [final, Store.settleExecution, Store.jobs_modifyResource, Store.modifyJob] at row'
      exact .inl (modified row' fun _ => rfl)
  | finalizeAgain _ _ final =>
      rcases Table.lookup_insert_cases row' with ⟨hj, rfl⟩ | ⟨-, row'⟩
      · refine .inr ⟨hj.trans ?_, rfl, rfl⟩
        simp [final, Store.settleExecution, Store.modifyJob, Store.finalizeMembers]
      · simp only [final, Store.settleExecution, Store.jobs_modifyResource, Store.modifyJob] at row'
        exact .inl (modified row' fun _ => rfl)
  | removeLocalConfiguration => exact .inl (modified row' fun _ => rfl)
  | removeLocalAssignment => exact .inl (modified row' fun _ => rfl)

theorem Committed.jobs_old {s s' : Store} {β : Type} {t : Transaction β} {a : β}
    (hc : Committed s t a s') {j : UUID} {job' : JobExecution}
    (row' : s'.jobs.lookup j = some job') :
    (∃ job, s.jobs.lookup j = some job ∧ (job'.step = job.step ∨ AdvancesJob s j job'.step t a)) ∨
      (j = s.nextId ∧ job'.name = .instanceUpdate) :=
  (hc.jobs_origin row').imp_right fun h => ⟨h.1, h.2.1⟩

/-- A job that a request files: one that creates an instance comes with it, and one that
deletes an instance starts where the request found it. -/
structure Files (s : Store) (r : Request) (j : UUID) (job : JobExecution) : Prop where
  fresh : s.nextId ≤ j
  creation : job.name = .instanceCreate → ∃ application slug, r = .createInstance application slug ∧
    j = s.nextId + 1 ∧ job.resourceId = some s.nextId
  deletion : job.name = .instanceDelete → ∃ id i, r = .requestInstanceDeletion id ∧ j = s.nextId ∧
    s.instances.lookup id = some i ∧ job.resourceType = some .instance ∧ job.resourceId = some id ∧
    ((job.step = .instanceDeleteStep02 ∧ i.action = .creating ∧ i.status = .error ∧
      i.passwordEnc = none) ∨ job.step = .instanceDeleteStep01)

/-- And every job has the type of resource that its name works on. -/
structure Filed (s : Store) (r : Request) (j : UUID) (job : JobExecution) : Prop
    extends Files s r j job where
  placed : job.resourceType = job.name.resourceType

/-- Jobs that a request leaves behind were there, or were filed by it. -/
theorem Accepted.job_filed {s s' : Store} {r : Request} (h : Accepted s r s') {j : UUID}
    {job' : JobExecution} (row' : s'.jobs.lookup j = some job') :
    s.jobs.lookup j = some job' ∨ Filed s r j job' := by
  have other : s.nextId ≤ j → job'.name ≠ .instanceCreate → job'.name ≠ .instanceDelete →
      job'.resourceType = job'.name.resourceType → Filed s r j job' :=
    fun hfresh hcreate hdelete hplaced =>
      ⟨⟨hfresh, fun hname => absurd hname hcreate, fun hname => absurd hname hdelete⟩, hplaced⟩
  have staged : ∀ {s₁ : Store} {name : JobName} {action : Action} {type : ResourceType} {id : UUID}
      {step : StepName}, (s₁.stageJob name action type id step).2.jobs.lookup j = some job' →
      name ≠ .instanceCreate → name ≠ .instanceDelete → some type = name.resourceType →
      s.nextId ≤ s₁.nextId → s₁.jobs.lookup j = some job' ∨ Filed s r j job' := by
    intro s₁ name action type id step h hcreate hdelete hplaced hid
    simp only [Store.stageJob, Store.addJobExecution, Store.drawId, Store.jobs_modifyLifecycle] at h
    rcases Table.lookup_insert_cases h with ⟨rfl, rfl⟩ | ⟨-, h⟩
    · exact .inr (other hid hcreate hdelete hplaced)
    · exact .inl h
  have discarded : ∀ {id : UUID}, (s.discardCurrentJob id).jobs.lookup j = some job' →
      s.jobs.lookup j = some job' := by
    intro id h
    rcases s.discardCurrentJob_cases id with ⟨heq, -⟩ | ⟨t, jobId, -, -, heq⟩
    · rwa [heq] at h
    · rw [heq] at h
      exact (Table.lookup_erase_some.mp h).2
  cases h with
  | createInstance =>
      rcases Table.lookup_insert_cases row' with ⟨rfl, rfl⟩ | ⟨-, row⟩
      · exact .inr ⟨⟨Nat.le_succ _, fun _ => ⟨_, _, rfl, rfl, rfl⟩, by rintro ⟨⟩⟩, rfl⟩
      · exact .inl row
  | @requestInstanceDeletion id i step row _ _ _ entry =>
      simp only [Store.stageJob, Store.addJobExecution, Store.drawId, Store.jobs_modifyLifecycle] at row'
      rcases Table.lookup_insert_cases row' with ⟨rfl, rfl⟩ | ⟨-, h⟩
      · exact .inr ⟨⟨Nat.le_refl _, by rintro ⟨⟩, fun _ => ⟨id, i, rfl, rfl, row, rfl, rfl,
          entry.imp_right And.left⟩⟩, rfl⟩
      · exact .inl h
  | requestSync | requestStart | requestStop | createKubernetesProvider
  | requestAssignmentDeletion | updateWorkspace | requestWorkspaceDeletion =>
      have hstaged := staged row' (by decide) (by decide) rfl (Nat.le_refl _)
      exact hstaged
  | createDatabase | updateDatabase | deleteDatabase | keepMemberRole | createTemplate
  | keepTemplate | createImage | deleteImage | createUserParameter | createSystemParameter
  | updateParameter | updateSystemValue | deleteUserParameter | deleteSystemParameter
  | keepAssignment | keepAssignmentDeletion | keepWorkspace => exact .inl row'
  | requestDatabaseSync | putAssignment | createWorkspace =>
      rcases Table.lookup_insert_cases row' with ⟨rfl, rfl⟩ | ⟨-, row⟩
      · exact .inr (other (by simp) (by rintro ⟨⟩) (by rintro ⟨⟩) rfl)
      · exact .inl row
  | createMember | updateMemberRole | requestMemberDeletion =>
      unfold Store.requestInstanceUpdate at row'
      split at row'
      · exact .inl row'
      · have hstaged := staged row' (by decide) (by decide) rfl (by simp)
        exact hstaged
  | updateTemplate | deleteTemplate => exact .inl (discarded row')
  | requestTemplateSync =>
      rcases staged row' (by decide) (by decide) rfl (by simp) with h | h
      · exact .inl (discarded h)
      · exact .inr h

theorem Accepted.job_cases {s s' : Store} {r : Request} (h : Accepted s r s') {j : UUID}
    {job' : JobExecution} (row' : s'.jobs.lookup j = some job') :
    s.jobs.lookup j = some job' ∨ Files s r j job' :=
  (h.job_filed row').imp_right Filed.toFiles

/-- Jobs that a move leaves behind were there, at the same step unless a worker
moved them on. -/
theorem Moved.job_step {w w' : World} {t : Trace} {what : WhatHappened} (hm : Moved w t what w')
    {j : UUID} {job' : JobExecution} (known : j < w.store.nextId)
    (row' : w'.store.jobs.lookup j = some job') :
    ∃ job, w.store.jobs.lookup j = some job ∧ (job'.step = job.step ∨
      ∃ (worker : Nat) (β : Type) (tr : Transaction β) (a : β),
        what = .called worker ⟨.transaction tr, .ok a⟩ ∧
        Discipline.transaction (workerHistory worker t) tr ∧
        AdvancesJob w.store j job'.step tr a) := by
  rcases hm.store_cases with heq | ⟨now, heq⟩ | ⟨r, rfl, hr⟩ | ⟨worker, β, tr, a, rfl, allowed, hc⟩
  · exact ⟨job', heq ▸ row', .inl rfl⟩
  · exact ⟨job', by simpa [heq] using row', .inl rfl⟩
  · rcases hr.job_cases row' with row | hfiled
    · exact ⟨job', row, .inl rfl⟩
    · exact absurd known (Nat.not_lt.mpr hfiled.fresh)
  · rcases hc.jobs_old row' with ⟨job, row, hstep⟩ | ⟨rfl, -⟩
    · exact ⟨job, row, hstep.imp_right fun h => ⟨worker, β, tr, a, rfl, allowed, h⟩⟩
    · exact absurd known (Nat.lt_irrefl _)

section Jobs
variable {w w' : World} {t : Trace} {what : WhatHappened} {j : UUID} {job job' : JobExecution}

theorem Moved.job_same (hm : Moved w t what w') (hs : Sound w.store)
    (row : w.store.jobs.lookup j = some job) (row' : w'.store.jobs.lookup j = some job') :
    job'.name = job.name ∧ job'.lease.owner = job.lease.owner := by
  have hjob : w.store.ledger.jobs j = some job.lease := by simp [Store.ledger, row]
  have hjob' : w'.store.ledger.jobs j = some job'.lease := by simp [Store.ledger, row']
  obtain ⟨b, hb, hname, howner, -⟩ := (hm.steps hs).job_origin hjob' (hs.ledger.known _ _ hjob)
  obtain rfl : job.lease = b := Option.some.inj (hjob.symm.trans hb)
  exact ⟨hname, howner⟩

theorem Moved.job_settled (hm : Moved w t what w') (hs : Sound w.store)
    (row : w.store.jobs.lookup j = some job) (row' : w'.store.jobs.lookup j = some job')
    (settled : job.status = .success) : job'.status = .success := by
  have hjob : w.store.ledger.jobs j = some job.lease := by simp [Store.ledger, row]
  have hjob' : w'.store.ledger.jobs j = some job'.lease := by simp [Store.ledger, row']
  have hsame := (hm.steps hs).settled_job hjob settled (hs.ledger.known _ _ hjob) hjob'
  exact (congrArg Job.status hsame).trans settled

end Jobs

def Store.Placed (s : Store) : Prop :=
  ∀ j job, s.jobs.lookup j = some job → job.resourceType = job.name.resourceType

theorem Moved.placed {w w' : World} {t : Trace} {what : WhatHappened} (hm : Moved w t what w')
    (hs : Sound w.store) (h : w.store.Placed) : w'.store.Placed := by
  intro j job' row'
  have kept : ∀ job, w.store.jobs.lookup j = some job →
      job'.resourceType = job'.name.resourceType := by
    intro job row
    obtain ⟨hname, howner⟩ := hm.job_same hs row row'
    have htype := congrArg (Option.map Prod.fst) howner
    simp only [JobExecution.lease, Option.map_map, Function.comp_def, Option.map_id'] at htype
    rw [htype, hname]
    exact h j job row
  rcases hm.store_cases with heq | ⟨now, heq⟩ | ⟨r, -, hr⟩ | ⟨worker, β, tr, a, -, -, hc⟩
  · exact kept job' (heq ▸ row')
  · exact kept job' (by simpa [heq] using row')
  · rcases hr.job_filed row' with row | hfiled
    · exact kept job' row
    · exact hfiled.placed
  · rcases hc.jobs_origin row' with ⟨job, row, -⟩ | ⟨-, hname, htype⟩
    · exact kept job row
    · rw [htype, hname]
      rfl

theorem Run.placed {w : World} {t : Trace} (h : Run w t) : w.store.Placed := by
  refine h.induction (motive := fun w _ => w.store.Placed) ?start ?move
  case start =>
    intro j job row
    cases row
  case move => exact fun w t what w' hrun hm ih => hm.placed hrun.sound ih

/-- What a worker's transaction does to the credentials of an instance and to the
name of its Application. -/
inductive Edited (s : Store) (id : UUID) (i i' : Instance) :
    {β : Type} → Transaction β → β → Prop
  | lifecycle {β : Type} {t : Transaction β} {a : β}
      (same : i' = { i with toLifecycle := i'.toLifecycle, state := i'.state })
      (step : i'.step = some .instanceCreateStep03 → i.step = some .instanceCreateStep03)
      (settled : i'.action = .creating → i'.status = .success → i.status = .success) :
      Edited s id i i' t a
  | named {β : Type} {t : Transaction β} {a : β} (name : String)
      (same : i' = { i with
        toLifecycle := i'.toLifecycle, state := i'.state, argocdApplicationName := some name })
      (settled : i'.action = .creating → i'.status = .success → i.status = .success) :
      Edited s id i i' t a
  | drawn {c : ExecutionClaim} {job : JobExecution} {preparation : BootstrapPreparation}
      {token : String} (owned : s.ownedExecution c = some job)
      (resource : job.resourceType = some .instance ∧ job.resourceId = some id)
      (unset : i.passwordEnc = none) (first : i.passwordCandidateEnc = none)
      (url : preparation.instanceUrl = id) (password : preparation.password = some token)
      (same : i' = { i with passwordCandidateEnc := some (.encrypt token id) }) :
      Edited s id i i' (.prepareBootstrap c) (some preparation)
  | promoted {c : ExecutionClaim} {job : JobExecution} {password : Sealed}
      (owned : s.ownedExecution c = some job)
      (resource : job.resourceType = some .instance ∧ job.resourceId = some id)
      (current : i.action = .creating ∧ i.step = some .instanceCreateStep03)
      (candidate : i.passwordEnc = some password ∨
        (i.passwordEnc = none ∧ i.passwordCandidateEnc = some password))
      (same : i' = { i with
        toLifecycle := i'.toLifecycle, passwordEnc := some password, passwordCandidateEnc := none }) :
      Edited s id i i' (.completeExecution c .promotePassword false) true

section Rewrites
variable {s s₁ : Store} {id : UUID} {i' : Instance} {job : JobExecution} {f : Lifecycle → Lifecycle}

theorem Store.instances_modifyResource_cases
    (row' : (s.modifyResource job f).instances.lookup id = some i') :
    ∃ i, s.instances.lookup id = some i ∧ (i' = i ∨
      (job.lease.owner = some (.instance, some id) ∧ i' = { i with toLifecycle := f i.toLifecycle })) := by
  unfold Store.modifyResource at row'
  split at row'
  · rename_i type id' htype hid
    cases type with
    | «instance» =>
        rcases Table.lookup_modify_cases row' with ⟨rfl, i, hi, rfl⟩ | ⟨-, hi⟩
        · exact ⟨i, hi, .inr ⟨JobExecution.lease_owner.mpr ⟨htype, hid⟩, rfl⟩⟩
        · exact ⟨i', hi, .inl rfl⟩
    | template | templateAssignment | workspace => exact ⟨i', row', .inl rfl⟩
  · exact ⟨i', row', .inl rfl⟩

theorem Store.instances_modify_cases {id' : UUID} {g : Instance → Instance}
    (row' : (s.instances.modify id' g).lookup id = some i') :
    ∃ i, s.instances.lookup id = some i ∧ (i' = i ∨ (id = id' ∧ i' = g i)) := by
  rcases Table.lookup_modify_cases row' with ⟨rfl, i, hi, rfl⟩ | ⟨-, hi⟩
  · exact ⟨i, hi, .inr ⟨rfl, rfl⟩⟩
  · exact ⟨i', hi, .inl rfl⟩

end Rewrites

theorem Mutated.instance_cases {s s₁ : Store} {job : JobExecution} {m : Mutation}
    (h : Mutated s job m s₁) {id : UUID} {i₁ : Instance}
    (row : s₁.instances.lookup id = some i₁) :
    ∃ i, s.instances.lookup id = some i ∧ (i₁ = i ∨
      (job.resourceType = some .instance ∧ job.resourceId = some id ∧
        ((∃ name missing, m = .storeApplicationName name missing ∧
            i₁ = { i with argocdApplicationName := some name, state := .started }) ∨
          (m = .markStopped ∧ i₁ = { i with state := .stopped }) ∨
          (m = .promotePassword ∧ ∃ password, (i.passwordEnc = some password ∨
              (i.passwordEnc = Option.none ∧ i.passwordCandidateEnc = some password)) ∧
            i₁ = { i with
              passwordEnc := some password, passwordCandidateEnc := Option.none })))) := by
  cases h with
  | none | markCreated | failMembers | deferMembers | convergeWorkspace | keepWorkspace =>
      exact ⟨i₁, row, .inl rfl⟩
  | storeApplicationName hrow =>
      obtain ⟨htype, hid, hi⟩ := Store.ownedInstance_eq_some.mp hrow
      obtain ⟨i, hrow', h | ⟨rfl, h⟩⟩ := Store.instances_modify_cases row
      · exact ⟨i, hrow', .inl h⟩
      · obtain rfl := Option.some.inj (hi.symm.trans hrow')
        exact ⟨_, hrow', .inr ⟨htype, hid, .inl ⟨_, _, rfl, h⟩⟩⟩
  | markStopped hrow =>
      obtain ⟨htype, hid, hi⟩ := Store.ownedInstance_eq_some.mp hrow
      obtain ⟨i, hrow', h | ⟨rfl, h⟩⟩ := Store.instances_modify_cases row
      · exact ⟨i, hrow', .inl h⟩
      · obtain rfl := Option.some.inj (hi.symm.trans hrow')
        exact ⟨_, hrow', .inr ⟨htype, hid, .inr (.inl ⟨rfl, h⟩)⟩⟩
  | promotePassword hrow promoted =>
      obtain ⟨htype, hid, hi⟩ := Store.ownedInstance_eq_some.mp hrow
      obtain ⟨i, hrow', h | ⟨rfl, h⟩⟩ := Store.instances_modify_cases row
      · exact ⟨i, hrow', .inl h⟩
      · obtain rfl := Option.some.inj (hi.symm.trans hrow')
        exact ⟨_, hrow', .inr ⟨htype, hid, .inr (.inr ⟨rfl, _, promoted, h⟩)⟩⟩

theorem Mutated.named {s s₁ : Store} {job : JobExecution} {name : String} {missing : WorkerError}
    {m : Mutation} (h : Mutated s job m s₁) (hm : m = .storeApplicationName name missing) {id : UUID}
    {i₁ : Instance} (resource : job.resourceId = some id)
    (row : s₁.instances.lookup id = some i₁) : i₁.argocdApplicationName = some name := by
  subst hm
  cases h with
  | storeApplicationName hrow =>
      obtain ⟨-, hid, -⟩ := Store.ownedInstance_eq_some.mp hrow
      obtain rfl := Option.some.inj (resource.symm.trans hid)
      obtain ⟨i, hi, rfl⟩ := Option.map_eq_some_iff.mp ((Table.lookup_modify_self _ _ _).symm.trans row)
      rfl

theorem Mutated.promoted {s s₁ : Store} {job : JobExecution} {m : Mutation}
    (h : Mutated s job m s₁) (hm : m = .promotePassword) {id : UUID} {i₁ : Instance}
    (resource : job.resourceId = some id) (row : s₁.instances.lookup id = some i₁) :
    ∃ i password, s.instances.lookup id = some i ∧ (i.passwordEnc = some password ∨
      (i.passwordEnc = Option.none ∧ i.passwordCandidateEnc = some password)) ∧
      i₁ = { i with passwordEnc := some password, passwordCandidateEnc := Option.none } := by
  subst hm
  cases h with
  | promotePassword hrow promoted =>
      obtain ⟨-, hid, hi⟩ := Store.ownedInstance_eq_some.mp hrow
      obtain rfl := Option.some.inj (resource.symm.trans hid)
      obtain ⟨i', hi', rfl⟩ := Option.map_eq_some_iff.mp
        ((Table.lookup_modify_self _ _ _).symm.trans row)
      exact ⟨_, _, hi, promoted, rfl⟩

theorem Mutated.instance_step {s s₁ : Store} {job : JobExecution} {m : Mutation}
    (h : Mutated s job m s₁) {id : UUID} {i₁ : Instance}
    (row : s₁.instances.lookup id = some i₁) :
    ∃ i, s.instances.lookup id = some i ∧ i₁.step = i.step := by
  obtain ⟨i, hi, rfl | ⟨-, -, ⟨_, _, -, rfl⟩ | ⟨-, rfl⟩ | ⟨-, _, -, rfl⟩⟩⟩ := h.instance_cases row
  · exact ⟨_, hi, rfl⟩
  · exact ⟨_, hi, rfl⟩
  · exact ⟨_, hi, rfl⟩
  · exact ⟨_, hi, rfl⟩

def AdvancesInstance (s : Store) (id : UUID) (next : StepName) :
    {β : Type} → Transaction β → β → Prop
  | _, .advanceExecution c _ step _, true => step = next ∧ ∃ job, s.ownedExecution c = some job ∧
      job.lease.owner = some (.instance, some id)
  | _, _, _ => False

open Store in
/-- An instance that a worker leaves at a step was there, is moved on to it, or is updated
once more. -/
theorem Committed.instance_step {s s' : Store} {β : Type} {t : Transaction β} {a : β}
    (hc : Committed s t a s') {id : UUID} {i' : Instance}
    (row' : s'.instances.lookup id = some i') {next : StepName} (at_ : i'.step = some next) :
    (∃ i, s.instances.lookup id = some i ∧ i.step = some next) ∨
      AdvancesInstance s id next t a ∨ next = .instanceUpdateStep01 := by
  have put : ∀ {s₁ : Store} {jobId : UUID} {g : JobExecution → JobExecution} {job : JobExecution}
      {f : Lifecycle → Lifecycle} {i : Instance}, i.step = some next →
      ((s₁.modifyJob jobId g).modifyResource job f).instances.lookup id = some i →
      (∀ r, (f r).step = some next → r.step = some next) →
      ∃ i₁, s₁.instances.lookup id = some i₁ ∧ i₁.step = some next := by
    intro s₁ jobId g job f i hstep hrow hf
    obtain ⟨i₁, hi₁, rfl | ⟨-, rfl⟩⟩ := instances_modifyResource_cases hrow
    · exact ⟨_, hi₁, hstep⟩
    · exact ⟨i₁, hi₁, hf _ hstep⟩
  have mutated : ∀ {s₁ : Store} {job : JobExecution} {m : Mutation}, Mutated s job m s₁ →
      (∃ i₁, s₁.instances.lookup id = some i₁ ∧ i₁.step = some next) →
      ∃ i, s.instances.lookup id = some i ∧ i.step = some next := by
    rintro s₁ job m hmut ⟨i₁, hi₁, hstep⟩
    obtain ⟨i, hi, heq⟩ := hmut.instance_step hi₁
    exact ⟨i, hi, heq.symm.trans hstep⟩
  have rewritten : ∀ {id' : UUID} {g : Instance → Instance},
      (∃ i₁, (s.instances.modify id' g).lookup id = some i₁ ∧ i₁.step = some next) →
      (∀ i, (g i).step = i.step) → ∃ i, s.instances.lookup id = some i ∧ i.step = some next := by
    rintro id' g ⟨i₁, hi₁, hstep⟩ hg
    obtain ⟨i, hi, rfl | ⟨-, rfl⟩⟩ := instances_modify_cases hi₁
    · exact ⟨_, hi, hstep⟩
    · exact ⟨i, hi, (hg i).symm.trans hstep⟩
  cases hc with
  | claimRefused | heartbeatStale | advanceStale | completeStale | deferStale | failStale
  | retryRefused | retryNamed | bootstrapStale | bootstrapKept | finalizeStale | startedStale
  | removeStale | stateKept | deploymentApplied | deploymentMissing | removeAssignmentStale
  | remoteIdsStale | heartbeatExecution | claimMembers | claimCleanup | prepareDeployment
  | storeTemplateRemoteIds | finishDeployment | removeLocalAssignment | storeWorkspaceRemoteIds =>
      exact .inl ⟨i', row', at_⟩
  | claimExecution | retryReclaimed => exact .inl (put at_ row' fun _ h => h)
  | advanceExecution owned hmut =>
      obtain ⟨i₁, hi₁, rfl | ⟨howner, rfl⟩⟩ := instances_modifyResource_cases row'
      · exact .inl (mutated hmut ⟨_, hi₁, at_⟩)
      · exact .inr (.inl ⟨Option.some.inj at_, _, owned, howner⟩)
  | completeExecution _ hmut => exact .inl (mutated hmut (put at_ row' fun _ h => by cases h))
  | deferExecution _ hmut | failExecution _ hmut =>
      exact .inl (mutated hmut (put at_ row' fun _ h => h))
  | completeDeletion _ hmut =>
      refine .inl (mutated hmut ⟨i', ?_, at_⟩)
      unfold deleteResource at row'
      split at row'
      · rename_i type _ _ _
        cases type with
        | «instance» => exact (Table.lookup_erase_some.mp row').2
        | template | templateAssignment | workspace => exact row'
      · exact row'
  | bootstrapDrawn | storeStartedApplication | recordInstanceState =>
      exact .inl (rewritten ⟨i', row', at_⟩ fun _ => rfl)
  | finalizeUpdate _ _ final =>
      subst final
      exact .inl (rewritten (put at_ row' fun _ h => by cases h) fun _ => rfl)
  | @finalizeAgain _ _ _ _ _ _ s₁ _ _ final =>
      obtain ⟨i₁, hi₁, rfl | ⟨-, rfl⟩⟩ := stageInstance_cases (s := s₁) row' rfl
      · subst final
        exact .inl (rewritten (put at_ hi₁ fun _ h => by cases h) fun _ => rfl)
      · exact .inr (.inr (Option.some.inj at_).symm)
  | removeLocalConfiguration => exact .inl ⟨i', (Table.lookup_erase_some.mp row').2, at_⟩

section Edits
variable {s s₁ : Store} {id : UUID} {i i₁ i' : Instance} {job : JobExecution} {c : ExecutionClaim}
  {β : Type} {t : Transaction β} {a : β}

theorem Edited.refl (i : Instance) : Edited s id i i t a :=
  .lifecycle rfl (fun h => h) fun _ h => h

theorem Edited.state (state : InstanceState) : Edited s id i { i with state } t a :=
  .lifecycle rfl (fun h => h) fun _ h => h

theorem Edited.put {f : Lifecycle → Lifecycle}
    (h : i' = i ∨ i' = { i with toLifecycle := f i.toLifecycle })
    (step : (f i.toLifecycle).step = some .instanceCreateStep03 →
      i.step = some .instanceCreateStep03)
    (settled : (f i.toLifecycle).action = .creating → (f i.toLifecycle).status = .success →
      i.status = .success) : Edited s id i i' t a := by
  rcases h with rfl | rfl
  · exact .refl _
  · exact .lifecycle rfl step settled

end Edits

open Store in
/-- Where an instance row comes from when a worker commits. -/
theorem Committed.edited {s s' : Store} {β : Type} {t : Transaction β} {a : β} {h : WorkerHistory}
    (hc : Committed s t a s') (hg : Discipline.transaction h t)
    (hl : Consistent catalogue s.ledger) {id : UUID} {i' : Instance}
    (row' : s'.instances.lookup id = some i') :
    ∃ i, s.instances.lookup id = some i ∧ Edited s id i i' t a := by
  have released : ∀ {s₁ : Store} {job : JobExecution} {c : ExecutionClaim} {m : Mutation}
      {jobId : UUID} {g : JobExecution → JobExecution} {status : Status}, Releases h c m → Mutated s job m s₁ →
      status ≠ .success → ((s₁.modifyJob jobId g).modifyResource job
        fun r => { r with status }).instances.lookup id = some i' →
      ∃ i, s.instances.lookup id = some i ∧ Edited s id i i' t a := by
    intro s₁ job c m jobId g status hrel hmut hstatus hrow
    obtain ⟨i₁, hi₁, hput⟩ := instances_modifyResource_cases hrow
    have hi : s.instances.lookup id = some i₁ := by
      cases hrel <;> cases hmut <;> exact hi₁
    exact ⟨i₁, hi, .put (f := fun r => { r with status }) (hput.imp_right And.right) (fun h => h)
      fun _ h => absurd h hstatus⟩
  -- Finalising an update names the Application and settles the job of the instance.
  have settles : ∀ {c : ExecutionClaim} {job : JobExecution} {memberIds : List UUID} {name : String}
      {id' : UUID} {i' : Instance}, s.ownedExecution c = some job →
      c.step = .instanceUpdateStep02 → ((Store.finalizeMembers { s with
        instances := s.instances.modify id' fun i => { i with argocdApplicationName := some name } }
        id' memberIds).settleExecution c job).instances.lookup id = some i' →
      ∃ i l, s.instances.lookup id = some i ∧ (i' = { i with toLifecycle := l } ∨
        i' = { i with toLifecycle := l, argocdApplicationName := some name }) ∧
        (l.step = some .instanceCreateStep03 → i.step = some .instanceCreateStep03) ∧
        (l.action = .creating → l.status = .success → i.status = .success) := by
    intro c job memberIds name id' i' owned hstep hrow
    obtain ⟨i₁, hi₁, hput⟩ := instances_modifyResource_cases hrow
    obtain ⟨i, hi, hnamed⟩ := instances_modify_cases hi₁
    have hother : job.lease.owner = some (.instance, some id) → i.action ≠ .creating := fun howner =>
      owned_not_creating hl owned (by rw [hstep]; decide) howner (lifecycle_instance hi)
    rcases hnamed with rfl | ⟨-, rfl⟩ <;> rcases hput with rfl | ⟨howner, rfl⟩
    · exact ⟨_, _, hi, .inl rfl, fun h => h, fun _ h => h⟩
    · exact ⟨_, _, hi, .inl rfl, (by rintro ⟨⟩), fun h => absurd h (hother howner)⟩
    · exact ⟨_, _, hi, .inr rfl, fun h => h, fun _ h => h⟩
    · exact ⟨_, _, hi, .inr rfl, (by rintro ⟨⟩), fun h => absurd h (hother howner)⟩
  cases hc with
  | claimRefused | heartbeatStale | advanceStale | completeStale | deferStale | failStale
  | retryRefused | retryNamed | bootstrapStale | bootstrapKept | finalizeStale | startedStale
  | removeStale | stateKept | deploymentApplied | deploymentMissing | removeAssignmentStale
  | remoteIdsStale | heartbeatExecution | claimMembers | claimCleanup | prepareDeployment
  | storeTemplateRemoteIds | finishDeployment | removeLocalAssignment | storeWorkspaceRemoteIds =>
      exact ⟨i', row', .refl _⟩
  | claimExecution =>
      obtain ⟨i, hi, hput⟩ := instances_modifyResource_cases row'
      exact ⟨i, hi, .put (f := fun r => { r with status := .running }) (hput.imp_right And.right)
        (fun h => h) (by rintro _ ⟨⟩)⟩
  | retryReclaimed =>
      obtain ⟨i, hi, hput⟩ := instances_modifyResource_cases row'
      exact ⟨i, hi, .put (f := fun r => { r with status := .pending }) (hput.imp_right And.right)
        (fun h => h) (by rintro _ ⟨⟩)⟩
  | deferExecution owned hmut => exact released hg.2 hmut (by decide) row'
  | failExecution owned hmut => exact released hg.2 hmut (by decide) row'
  | @advanceExecution c task step mutate job s₁ owned hmut =>
      obtain ⟨-, -, hadv⟩ := hg
      obtain ⟨i₁, hi₁, hput⟩ := instances_modifyResource_cases row'
      obtain ⟨i, hi, hedit⟩ := hmut.instance_cases hi₁
      refine ⟨i, hi, ?_⟩
      have hrenamed : ∀ name missing, mutate = .storeApplicationName name missing →
          i₁ = { i with argocdApplicationName := some name, state := .started } →
          Edited s id i i' (.advanceExecution c task step mutate) true := by
        rintro name missing - rfl
        rcases hput with rfl | ⟨-, rfl⟩
        · exact .named name rfl fun _ h => h
        · exact .named name rfl (by rintro _ ⟨⟩)
      rcases hedit with rfl | ⟨htype, hid, ⟨name, missing, hm, hrow⟩ | ⟨hm, rfl⟩ | ⟨hm, -⟩⟩
      · rcases hput with rfl | ⟨howner, rfl⟩
        · exact .refl _
        · by_cases hstep : step = .instanceCreateStep03
          · -- The last creation step comes with the name of the Application.
            obtain ⟨name, missing, hm⟩ : ∃ name missing, mutate = .storeApplicationName name missing := by
              subst hstep
              cases hadv
              exact ⟨_, _, rfl⟩
            have hname := hmut.named hm (JobExecution.lease_owner.mp howner).2 hi₁
            refine .named name ?_ (by rintro _ ⟨⟩)
            simp [← hname]
          · exact .lifecycle rfl (fun h => absurd (Option.some.inj h) hstep) (by rintro _ ⟨⟩)
      · exact hrenamed name missing hm hrow
      · rcases hput with rfl | ⟨-, rfl⟩
        · exact .state _
        · refine .lifecycle rfl (fun h => ?_) (by rintro _ ⟨⟩)
          subst hm
          cases hadv
          cases h
      · subst hm
        cases hadv
  | @completeExecution c mutate job s₁ owned hmut =>
      obtain ⟨-, hconcl⟩ := hg
      obtain ⟨i₁, hi₁, hput⟩ := instances_modifyResource_cases row'
      by_cases howner : job.lease.owner = some (.instance, some id)
      · obtain ⟨htype, hid⟩ := JobExecution.lease_owner.mp howner
        by_cases hm : mutate = .promotePassword
        · obtain ⟨i, password, hi, hpromoted, hrow⟩ := hmut.promoted hm hid hi₁
          subst hm
          refine ⟨i, hi, .promoted owned ⟨htype, hid⟩ ?_ hpromoted ?_⟩
          · obtain ⟨hjob, -, hstep, -, -, current⟩ := ownedExecution_eq_some.mp owned
            obtain ⟨-, -, hcur, haction⟩ :=
              matches_lifecycle hl hjob current howner (lifecycle_instance hi)
            have hname := owned_mem_steps hl owned
            cases hconcl with
            | bootstrapAdmin step =>
                rw [hcur, hstep, step]
                refine ⟨?_, rfl⟩
                rw [step] at hname
                revert haction hname
                cases job.name <;> simp [resourceActions, JobName.steps, eq_comm]
          · rcases hput with rfl | ⟨-, rfl⟩ <;> rw [hrow]
        · -- Other jobs that settle here create no instance.
          obtain ⟨i, hi, hedit⟩ := hmut.instance_cases hi₁
          have hother : i.action ≠ .creating := by
            refine owned_not_creating hl owned ?_ howner (lifecycle_instance hi)
            cases hconcl with
            | bootstrapAdmin => exact absurd rfl hm
            | stopInstance step | createTemplate step =>
                rw [step]
                decide
            | sync step | convergeWorkspace step => rcases step with h | h <;> rw [h] <;> decide
          refine ⟨i, hi, ?_⟩
          have hkept : i₁ = { i with state := i₁.state } := by
            rcases hedit with rfl | ⟨-, -, ⟨name, missing, hm', -⟩ | ⟨-, rfl⟩ | ⟨hm', -⟩⟩
            · rfl
            · subst hm'
              cases hconcl
            · rfl
            · exact absurd hm' hm
          rcases hput with rfl | ⟨-, rfl⟩
          · rw [hkept]
            exact .state _
          · rw [hkept]
            exact .lifecycle rfl (by rintro ⟨⟩) fun h => absurd h hother
      · obtain rfl : i' = i₁ := hput.resolve_right fun h => howner h.1
        obtain ⟨i, hi, rfl | ⟨htype, hid, -⟩⟩ := hmut.instance_cases hi₁
        · exact ⟨_, hi, .refl _⟩
        · exact absurd (JobExecution.lease_owner.mpr ⟨htype, hid⟩) howner
  | @completeDeletion c mutate job s₁ owned hmut =>
      have hkept : s₁.instances = s.instances := by
        obtain ⟨-, hconcl⟩ := hg
        cases hconcl
        cases hmut <;> rfl
      refine ⟨i', ?_, .refl _⟩
      unfold deleteResource at row'
      split at row'
      · rename_i type id' _ _
        cases type with
        | «instance» => exact hkept ▸ (Table.lookup_erase_some.mp row').2
        | template | templateAssignment | workspace => exact hkept ▸ row'
      · exact hkept ▸ row'
  | @bootstrapDrawn c job id' i₀ preparation token owned row update url unset first password =>
      obtain ⟨htype, hid, hi₀⟩ := ownedInstance_eq_some.mp row
      obtain ⟨i, hi, rfl | ⟨rfl, rfl⟩⟩ := instances_modify_cases row'
      · exact ⟨_, hi, .refl _⟩
      · obtain rfl := Option.some.inj (hi₀.symm.trans hi)
        exact ⟨_, hi, .drawn owned ⟨htype, hid⟩ unset first url password rfl⟩
  | @finalizeUpdate c memberIds name job id' i₀ s₁ owned row final =>
      subst final
      obtain ⟨i, l, hi, rfl | rfl, hstep, hsettled⟩ := settles owned hg.2.1 row'
      · exact ⟨i, hi, .lifecycle rfl hstep hsettled⟩
      · exact ⟨i, hi, .named name rfl hsettled⟩
  | @finalizeAgain c memberIds name job id' i₀ s₁ owned row final =>
      obtain ⟨i₁, hi₁, hstaged⟩ := stageInstance_cases (s := s₁) row' rfl
      subst final
      obtain ⟨i, l, hi, hrow, hstep, hsettled⟩ := settles owned hg.2.1 hi₁
      refine ⟨i, hi, ?_⟩
      rcases hstaged with rfl | ⟨-, rfl⟩ <;> rcases hrow with rfl | rfl
      · exact .lifecycle rfl hstep hsettled
      · exact .named name rfl hsettled
      · exact .lifecycle rfl (by rintro ⟨⟩) (by rintro ⟨⟩)
      · exact .named name rfl (by rintro ⟨⟩)
  | @storeStartedApplication c name job id' i₀ owned row =>
      obtain ⟨i, hi, rfl | ⟨rfl, rfl⟩⟩ := instances_modify_cases row'
      · exact ⟨_, hi, .refl _⟩
      · refine ⟨_, hi, ?_⟩
        cases name with
        | none => exact .lifecycle rfl (fun h => h) fun _ h => h
        | some name => exact .named name rfl fun _ h => h
  | removeLocalConfiguration => exact ⟨i', (Table.lookup_erase_some.mp row').2, .refl _⟩
  | recordInstanceState =>
      obtain ⟨i, hi, rfl | ⟨-, rfl⟩⟩ := instances_modify_cases row'
      · exact ⟨_, hi, .refl _⟩
      · exact ⟨_, hi, .state _⟩

end CoderManager
