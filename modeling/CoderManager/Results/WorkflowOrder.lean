import CoderManager.Refinement.Instances

/-!
# Workflow order

Attempts are lost, repeated and interleaved, and still every job goes through the steps
of its workflow one after the other, each entered once, and succeeds in the last one.
-/
namespace CoderManager
open Programs Tables Leases

def advancing : {β : Type} → Op β → Except WorkerError β → Option (UUID × StepName)
  | _, .transaction (.advanceExecution c _ next _), .ok true => some (c.jobId, next)
  | _, _, _ => none

def advancesOf (j : UUID) : WhatHappened → List StepName
  | .called _ e =>
      match advancing e.op e.result with
      | some (jobId, next) => if jobId = j then [next] else []
      | none => []
  | .changed _ => []

def advances (j : UUID) : Trace → List StepName
  | [] => []
  | e :: t => advances j t ++ advancesOf j e.what

/-- The creation of the instance has failed, and before it had a password. -/
def Store.Unbuilt (s : Store) (id : UUID) : Prop :=
  ∃ i, s.instances.lookup id = some i ∧ i.action = .creating ∧ i.status = .error ∧ i.passwordEnc = none

/-- The job was filed by a request to delete such an instance. -/
def FiledUnbuilt (j id : UUID) (e : Entry Op WorkerError World Change) : Prop :=
  e.what = .changed (.request (.requestInstanceDeletion id)) ∧ j = e.before.store.nextId ∧
    e.before.store.Unbuilt id

/-- The deletion of an instance that was never built is filed at its second step. -/
def SkipsFirst (j : UUID) (t : Trace) (job : JobExecution) (start : StepName) : Prop :=
  job.name = .instanceDelete ∧ start = .instanceDeleteStep02 ∧
    ∃ id, job.lease.owner = some (.instance, some id) ∧ ∃ e ∈ t, FiledUnbuilt j id e

/-- A job has gone through its workflow from the step it was filed at to its current one. -/
inductive Followed (j : UUID) (t : Trace) (job : JobExecution) : Prop where
  | intro (skipped : List StepName) (start : StepName) (ahead : List StepName)
      (ordered : job.name.steps = skipped ++ (start :: advances j t) ++ ahead)
      (current : (start :: advances j t).getLast? = some job.step)
      (filed : skipped = [] ∨ SkipsFirst j t job start)
      (finished : job.status = .success → ahead = [])

/-- Every job of the store has followed its workflow. -/
def WorkflowsFollowed (s : Store) (t : Trace) : Prop :=
  ∀ j job, s.jobs.lookup j = some job → Followed j t job

theorem SkipsFirst.later {j : UUID} {t : Trace} {job job' : JobExecution} {start : StepName}
    (h : SkipsFirst j t job start) (name : job'.name = job.name)
    (owner : job'.lease.owner = job.lease.owner) (e : Entry Op WorkerError World Change) :
    SkipsFirst j (e :: t) job' start := by
  obtain ⟨hname, hstart, id, hid, e', he', hfiled⟩ := h
  exact ⟨name.trans hname, hstart, id, owner.trans hid, e', List.mem_cons_of_mem e he', hfiled⟩

section Steps

theorem JobName.steps_nodup (name : JobName) : name.steps.Nodup := by
  cases name <;> decide

theorem Advances.next {h : WorkerHistory} {c : ExecutionClaim} {next : StepName}
    {mutate : Mutation} (advance : Advances h c next mutate) {name : JobName}
    (member : c.step ∈ name.steps) : [c.step, next] <:+: name.steps := by
  cases advance with
  | createSchema step | createInstance step | updateInstance step | startInstance step
  | stopWorkspaces step | removeWorkspaces step | removeInstance step | removeSchema step =>
      rw [step] at member ⊢
      revert member
      cases name <;> decide

def StepName.concludes : StepName → Bool
  | .instanceCreateStep03 | .instanceUpdateStep02 | .instanceStopStep02 | .instanceDeleteStep04
  | .templateAssignmentCreateStep01 | .templateAssignmentDeleteStep01 | .templateSyncStep01
  | .databaseSyncStep01 | .workspaceCreateStep01 | .workspaceUpdateStep01
  | .workspaceDeleteStep01 => true
  | _ => false

theorem JobName.steps_concluded {name : JobName} {step : StepName} (member : step ∈ name.steps)
    (concludes : step.concludes = true) : name.steps.getLast? = some step := by
  revert member concludes
  cases name <;> cases step <;> decide

theorem Concludes.concludes {c : ExecutionClaim} {mutate : Mutation} {delete : Bool}
    (h : Concludes c mutate delete) : c.step.concludes = true := by
  cases h with
  | bootstrapAdmin step | stopInstance step | createTemplate step | deleteWorkspace step =>
      rw [step]
      rfl
  | sync step | convergeWorkspace step =>
      rcases step with step | step <;> rw [step] <;> rfl

variable {name : JobName} {skipped done ahead : List StepName} {step next : StepName}

/-- The current step stands once in the workflow, so what lies ahead of it is determined. -/
theorem JobName.ahead_eq (ordered : name.steps = skipped ++ done ++ ahead)
    (current : done.getLast? = some step) {before after : List StepName}
    (here : name.steps = before ++ step :: after) : ahead = after := by
  obtain ⟨initial, rfl⟩ := List.getLast?_eq_some_iff.mp current
  have hsplit : name.steps = (skipped ++ initial) ++ step :: ahead := by
    rw [ordered]
    simp only [List.append_assoc, List.singleton_append]
  have hnodup := name.steps_nodup
  rw [hsplit] at hnodup
  have hbefore : step ∉ skipped ++ initial := by
    intro hmem
    exact List.disjoint_of_nodup_append hnodup hmem List.mem_cons_self
  have hafter : step ∉ ahead := (List.nodup_cons.mp hnodup.of_append_right).1
  exact ((List.append_cons_inj_of_notMem hbefore hafter).mp (hsplit.symm.trans here)).2.2

end Steps

section Moves
variable {w w' : World} {t : Trace} {what : WhatHappened} {j : UUID} {job job' : JobExecution}

theorem advancing_eq_some {β : Type} {op : Op β} {result : Except WorkerError β} {next : StepName}
    (h : advancing op result = some (j, next)) : ∃ c task mutate,
      (⟨op, result⟩ : WorkerEvent) =
        ⟨.transaction (.advanceExecution c task next mutate), .ok true⟩ ∧ c.jobId = j := by
  unfold advancing at h
  split at h
  · rename_i c task next' mutate
    cases h
    exact ⟨c, task, mutate, rfl, rfl⟩
  · cases h

theorem advancesOf_cases (j : UUID) (what : WhatHappened) :
    advancesOf j what = [] ∨ ∃ worker c task next mutate,
      what = .called worker ⟨.transaction (.advanceExecution c task next mutate), .ok true⟩ ∧
        c.jobId = j ∧ advancesOf j what = [next] := by
  cases what with
  | changed => exact .inl rfl
  | called worker e =>
      simp only [advancesOf]
      cases hadv : advancing e.op e.result with
      | none => exact .inl rfl
      | some moved =>
          obtain ⟨c, task, mutate, he, hjob⟩ := advancing_eq_some hadv
          by_cases hmoved : moved.1 = j
          · exact .inr ⟨worker, c, task, moved.2, mutate, congrArg _ he, hjob.trans hmoved,
              if_pos hmoved⟩
          · exact .inl (if_neg hmoved)

def ConcludesJob (s : Store) (j : UUID) : {β : Type} → Transaction β → Prop
  | _, .completeExecution c _ _ => c.jobId = j ∧ (s.ownedExecution c).isSome = true
  | _, .finalizeUpdate c _ _ => c.jobId = j ∧ (s.ownedExecution c).isSome = true
  | _, .removeLocalConfiguration c => c.jobId = j ∧ (s.ownedExecution c).isSome = true
  | _, .removeLocalAssignment c _ => c.jobId = j ∧ (s.ownedExecution c).isSome = true
  | _, _ => False

theorem Committed.job_concluded {s s' : Store} {β : Type} {tr : Transaction β} {a : β}
    (hc : Committed s tr a s') (row' : s'.jobs.lookup j = some job')
    (success : job'.status = .success) :
    (∃ job, s.jobs.lookup j = some job ∧ job.status = .success) ∨ ConcludesJob s j tr := by
  have modified : ∀ {id : UUID} {g : JobExecution → JobExecution},
      (s.jobs.modify id g).lookup j = some job' →
      (∀ job, (g job).status = .success → job.status = .success) →
      ∃ job, s.jobs.lookup j = some job ∧ job.status = .success := by
    intro id g h hg
    rcases Table.lookup_modify_cases h with ⟨rfl, job, hjob, rfl⟩ | ⟨-, hjob⟩
    · exact ⟨job, hjob, hg job success⟩
    · exact ⟨job', hjob, success⟩
  have concluded : ∀ {id : UUID} {g : JobExecution → JobExecution},
      (s.jobs.modify id g).lookup j = some job' →
      (∃ job, s.jobs.lookup j = some job ∧ job.status = .success) ∨ id = j := by
    intro id g h
    rcases Table.lookup_modify_cases h with ⟨rfl, job, hjob, rfl⟩ | ⟨-, hjob⟩
    · exact .inr rfl
    · exact .inl ⟨job', hjob, success⟩
  cases hc with
  | claimRefused | heartbeatStale | advanceStale | completeStale | deferStale | failStale
  | retryRefused | retryNamed | bootstrapStale | bootstrapKept | finalizeStale | startedStale
  | removeStale | stateKept | deploymentApplied | deploymentMissing | removeAssignmentStale
  | remoteIdsStale | bootstrapDrawn | claimMembers | claimCleanup | storeStartedApplication
  | recordInstanceState | prepareDeployment | storeTemplateRemoteIds | finishDeployment
  | storeWorkspaceRemoteIds => exact .inl ⟨job', row', success⟩
  | claimExecution | retryReclaimed =>
      rw [Store.jobs_modifyResource] at row'
      exact .inl (modified row' fun _ h => by cases h)
  | heartbeatExecution => exact .inl (modified row' fun _ h => h)
  | advanceExecution _ hmut | deferExecution _ hmut | failExecution _ hmut =>
      simp only [Store.releaseExecution, Store.jobs_modifyResource, Store.modifyJob,
        hmut.jobs_eq] at row'
      exact .inl (modified row' fun _ h => by cases h)
  | completeExecution owned hmut =>
      simp only [Store.settleExecution, Store.jobs_modifyResource, Store.modifyJob,
        hmut.jobs_eq] at row'
      exact (concluded row').imp_right fun h => ⟨h, by simp [owned]⟩
  | completeDeletion owned hmut =>
      simp only [Store.jobs_deleteResource, Store.modifyJob, hmut.jobs_eq] at row'
      exact (concluded row').imp_right fun h => ⟨h, by simp [owned]⟩
  | finalizeUpdate owned _ final =>
      simp only [final, Store.settleExecution, Store.jobs_modifyResource, Store.modifyJob] at row'
      exact (concluded row').imp_right fun h => ⟨h, by simp [owned]⟩
  | finalizeAgain owned _ final =>
      rcases Table.lookup_insert_cases row' with ⟨hj, rfl⟩ | ⟨-, row'⟩
      · cases success
      · simp only [final, Store.settleExecution, Store.jobs_modifyResource, Store.modifyJob] at row'
        exact (concluded row').imp_right fun h => ⟨h, by simp [owned]⟩
  | removeLocalConfiguration owned | removeLocalAssignment owned =>
      exact (concluded row').imp_right fun h => ⟨h, by simp [owned]⟩

theorem ConcludesJob.step {s : Store} {β : Type} {tr : Transaction β} {h : WorkerHistory}
    (allowed : Discipline.transaction h tr) (concludes : ConcludesJob s j tr) :
    ∃ job, s.jobs.lookup j = some job ∧ job.step.concludes = true := by
  have owned : ∀ {c : ExecutionClaim}, c.jobId = j ∧ (s.ownedExecution c).isSome = true →
      c.step.concludes = true → ∃ job, s.jobs.lookup j = some job ∧ job.step.concludes = true := by
    intro c hc hstep
    obtain ⟨rfl, hsome⟩ := hc
    obtain ⟨job, howned⟩ := Option.isSome_iff_exists.mp hsome
    obtain ⟨row, -, hsame, -⟩ := Store.ownedExecution_eq_some.mp howned
    exact ⟨job, row, hsame ▸ hstep⟩
  cases tr <;> try cases concludes
  case completeExecution => exact owned ⟨‹_›, ‹_›⟩ allowed.2.concludes
  case finalizeUpdate => exact owned ⟨‹_›, ‹_›⟩ (by rw [allowed.2.1]; rfl)
  case removeLocalConfiguration => exact owned ⟨‹_›, ‹_›⟩ (by rw [allowed.2]; rfl)
  case removeLocalAssignment => exact owned ⟨‹_›, ‹_›⟩ (by rw [allowed.2.1]; rfl)

/-- Where a job that is new after this move may stand. -/
inductive Starts (j : UUID) (e : Entry Op WorkerError World Change) (job : JobExecution) : Prop where
  | first (pending : job.status = .pending) (head : job.name.steps.head? = some job.step)
  | unbuilt {id : UUID} (pending : job.status = .pending) (name : job.name = .instanceDelete)
      (step : job.step = .instanceDeleteStep02) (owner : job.lease.owner = some (.instance, some id))
      (filed : FiledUnbuilt j id e)

theorem Accepted.job_starts {s s' : Store} {r : Request} (h : Accepted s r s')
    (row' : s'.jobs.lookup j = some job') :
    s.jobs.lookup j = some job' ∨ Starts j ⟨⟨s⟩, .changed (.request r)⟩ job' := by
  have staged : ∀ {s₁ : Store} {name : JobName} {action : Action} {type : ResourceType} {id : UUID}
      {step : StepName}, (s₁.stageJob name action type id step).2.jobs.lookup j = some job' →
      name.steps.head? = some step →
      s₁.jobs.lookup j = some job' ∨ Starts j ⟨⟨s⟩, .changed (.request r)⟩ job' := by
    intro s₁ name action type id step h hstart
    simp only [Store.stageJob, Store.addJobExecution, Store.drawId, Store.jobs_modifyLifecycle] at h
    rcases Table.lookup_insert_cases h with ⟨rfl, rfl⟩ | ⟨-, h⟩
    · exact .inr (.first rfl hstart)
    · exact .inl h
  have discarded : ∀ {id : UUID}, (s.discardCurrentJob id).jobs.lookup j = some job' →
      s.jobs.lookup j = some job' := by
    intro id h
    rcases s.discardCurrentJob_cases id with ⟨heq, -⟩ | ⟨t, jobId, -, -, heq⟩
    · rwa [heq] at h
    · rw [heq] at h
      exact (Table.lookup_erase_some.mp h).2
  cases h with
  | createInstance =>
      rcases Table.lookup_insert_cases row' with ⟨rfl, rfl⟩ | ⟨-, row⟩
      · exact .inr (.first rfl rfl)
      · exact .inl row
  | @requestInstanceDeletion id i step row _ _ _ entry =>
      simp only [Store.stageJob, Store.addJobExecution, Store.drawId,
        Store.jobs_modifyLifecycle] at row'
      rcases Table.lookup_insert_cases row' with ⟨rfl, rfl⟩ | ⟨-, h⟩
      · rcases entry with ⟨rfl, hcreating, herror, hnone⟩ | ⟨rfl, -⟩
        · exact .inr (.unbuilt rfl rfl rfl rfl ⟨rfl, rfl, i, row, hcreating, herror, hnone⟩)
        · exact .inr (.first rfl rfl)
      · exact .inl h
  | requestSync | requestStart | requestStop | createKubernetesProvider
  | requestAssignmentDeletion | updateWorkspace | requestWorkspaceDeletion =>
      have hstaged := staged row' rfl
      exact hstaged
  | createDatabase | updateDatabase | deleteDatabase | keepMemberRole | createTemplate
  | keepTemplate | createImage | deleteImage | createUserParameter | createSystemParameter
  | updateParameter | updateSystemValue | deleteUserParameter | deleteSystemParameter
  | keepAssignment | keepAssignmentDeletion | keepWorkspace => exact .inl row'
  | requestDatabaseSync | putAssignment | createWorkspace =>
      rcases Table.lookup_insert_cases row' with ⟨rfl, rfl⟩ | ⟨-, row⟩
      · exact .inr (.first rfl rfl)
      · exact .inl row
  | createMember | updateMemberRole | requestMemberDeletion =>
      unfold Store.requestInstanceUpdate at row'
      split at row'
      · exact .inl row'
      · have hstaged := staged row' rfl
        exact hstaged
  | updateTemplate | deleteTemplate => exact .inl (discarded row')
  | requestTemplateSync => exact (staged row' rfl).imp_left discarded

theorem Committed.job_starts {s s' : Store} {β : Type} {tr : Transaction β} {a : β}
    (hc : Committed s tr a s') (row' : s'.jobs.lookup j = some job')
    (e : Entry Op WorkerError World Change) :
    (∃ job, s.jobs.lookup j = some job) ∨ Starts j e job' := by
  have modified : ∀ {id : UUID} {g : JobExecution → JobExecution},
      (s.jobs.modify id g).lookup j = some job' → ∃ job, s.jobs.lookup j = some job := by
    intro id g h
    rcases Table.lookup_modify_cases h with ⟨rfl, job, hjob, rfl⟩ | ⟨-, hjob⟩
    · exact ⟨job, hjob⟩
    · exact ⟨job', hjob⟩
  cases hc with
  | claimRefused | heartbeatStale | advanceStale | completeStale | deferStale | failStale
  | retryRefused | retryNamed | bootstrapStale | bootstrapKept | finalizeStale | startedStale
  | removeStale | stateKept | deploymentApplied | deploymentMissing | removeAssignmentStale
  | remoteIdsStale | bootstrapDrawn | claimMembers | claimCleanup | storeStartedApplication
  | recordInstanceState | prepareDeployment | storeTemplateRemoteIds | finishDeployment
  | storeWorkspaceRemoteIds => exact .inl ⟨job', row'⟩
  | claimExecution | retryReclaimed =>
      rw [Store.jobs_modifyResource] at row'
      exact .inl (modified row')
  | heartbeatExecution | removeLocalConfiguration | removeLocalAssignment =>
      exact .inl (modified row')
  | advanceExecution _ hmut | deferExecution _ hmut | failExecution _ hmut
  | completeExecution _ hmut | completeDeletion _ hmut =>
      simp only [Store.releaseExecution, Store.settleExecution, Store.jobs_modifyResource,
        Store.jobs_deleteResource, Store.modifyJob, hmut.jobs_eq] at row'
      exact .inl (modified row')
  | finalizeUpdate _ _ final =>
      simp only [final, Store.settleExecution, Store.jobs_modifyResource, Store.modifyJob] at row'
      exact .inl (modified row')
  | finalizeAgain _ _ final =>
      rcases Table.lookup_insert_cases row' with ⟨hj, rfl⟩ | ⟨-, row'⟩
      · exact .inr (.first rfl rfl)
      · simp only [final, Store.settleExecution, Store.jobs_modifyResource, Store.modifyJob] at row'
        exact .inl (modified row')

/-- A job that a move does not advance stays where it was and succeeds only at a last
step, or is new. -/
theorem Moved.job_stays (hm : Moved w t what w') (hs : Sound w.store)
    (quiet : advancesOf j what = [])
    (row' : w'.store.jobs.lookup j = some job') :
    (∃ job, w.store.jobs.lookup j = some job ∧ job'.step = job.step ∧
      (job'.status = .success → job.status = .success ∨ job.step.concludes = true)) ∨
      w.store.nextId ≤ j ∧ Starts j ⟨w, what⟩ job' := by
  have kept : w.store.jobs.lookup j = some job' →
      ∃ job, w.store.jobs.lookup j = some job ∧ job'.step = job.step ∧
        (job'.status = .success → job.status = .success ∨ job.step.concludes = true) :=
    fun row => ⟨job', row, rfl, .inl⟩
  rcases hm.store_cases with heq | ⟨now, heq⟩ | ⟨r, rfl, hr⟩ | ⟨worker, β, tr, a, rfl, allowed, hc⟩
  · exact .inl (kept (heq ▸ row'))
  · exact .inl (kept (by simpa [heq] using row'))
  · rcases hr.job_starts row' with row | hstarts
    · exact .inl (kept row)
    · rcases hr.job_filed row' with row | hfiled
      · exact .inl (kept row)
      · exact .inr ⟨hfiled.fresh, hstarts⟩
  · cases hrow : w.store.jobs.lookup j with
    | none =>
        rcases hc.jobs_old row' with ⟨job, row, -⟩ | ⟨rfl, -⟩
        · cases row.symm.trans hrow
        · rcases hc.job_starts row' ⟨w, _⟩ with ⟨job, row⟩ | hstarts
          · cases row.symm.trans hrow
          · exact .inr ⟨Nat.le_refl _, hstarts⟩
    | some job =>
        refine .inl ⟨job, rfl, ?_, ?_⟩
        · rcases hc.jobs_old row' with ⟨job₀, row, hstep | hadv⟩ | ⟨hnew, -⟩
          · cases row.symm.trans hrow
            exact hstep
          · unfold AdvancesJob at hadv
            split at hadv
            · obtain ⟨rfl, rfl, -⟩ := hadv
              simp [advancesOf, advancing] at quiet
            · cases hadv
          · have hknown := hs.ledger.known j job.lease (by simp [Store.ledger, hrow])
            exact absurd (hnew ▸ hknown) (Nat.lt_irrefl _)
        · intro success
          rcases hc.job_concluded row' success with ⟨job₀, row, hsuccess⟩ | hconcludes
          · cases row.symm.trans hrow
            exact .inl hsuccess
          · obtain ⟨job₀, row, hstep⟩ := hconcludes.step allowed
            cases row.symm.trans hrow
            exact .inr hstep

/-- The jobs and what the trace says about them. -/
structure WorkflowsInOrder (s : Store) (t : Trace) : Prop where
  known : ∀ j, advances j t ≠ [] → j < s.nextId
  jobs : WorkflowsFollowed s t

theorem Followed.stays (ih : WorkflowsInOrder w.store t) (hs : Sound w.store)
    (hm : Moved w t what w') (quiet : advancesOf j what = [])
    (row' : w'.store.jobs.lookup j = some job') : Followed j (⟨w, what⟩ :: t) job' := by
  have hsame : advances j (⟨w, what⟩ :: t) = advances j t := by
    rw [advances, quiet, List.append_nil]
  rcases hm.job_stays hs quiet row' with ⟨job, row, hstep, hsuccess⟩ | ⟨hnew, hstarts⟩
  · obtain ⟨skipped, start, ahead, ordered, current, filed, finished⟩ := ih.jobs j job row
    obtain ⟨hname, howner⟩ := hm.job_same hs row row'
    refine .intro skipped start ahead ?_ ?_ ?_ ?_
    · rw [hsame, hname, ordered]
    · rw [hsame, hstep, current]
    · exact filed.imp_right fun hskips => hskips.later hname howner _
    · intro success
      rcases hsuccess success with hold | hlast
      · exact finished hold
      · have hmember := (hs.ledger.stage j job.lease (by simp [Store.ledger, row])).1
        obtain ⟨before, hbefore⟩ :=
          List.getLast?_eq_some_iff.mp (JobName.steps_concluded hmember hlast)
        exact JobName.ahead_eq ordered current hbefore
  · have hunseen : advances j t = [] := by
      by_contra hne
      exact absurd (ih.known j hne) (Nat.not_lt.mpr hnew)
    cases hstarts with
    | first hpending hfirst =>
        obtain ⟨ahead, hsteps⟩ := List.head?_eq_some_iff.mp hfirst
        refine .intro [] job'.step ahead ?_ ?_ (.inl rfl) fun h => ?_
        · rw [hsame, hunseen, hsteps]
          rfl
        · rw [hsame, hunseen]
          rfl
        · cases hpending.symm.trans h
    | @unbuilt id hpending hname hstep howner hfiled =>
        refine .intro [.instanceDeleteStep01] job'.step
          [.instanceDeleteStep03, .instanceDeleteStep04] ?_ ?_
          (.inr ⟨hname, hstep, id, howner, _, List.mem_cons_self, hfiled⟩) fun h => ?_
        · rw [hsame, hunseen, hname, hstep]
          rfl
        · rw [hsame, hunseen]
          rfl
        · cases hpending.symm.trans h

def JobAdvanced (s s' : Store) : {β : Type} → Transaction β → β → Prop
  | _, .advanceExecution c task next _, true => ∃ job, s.ownedExecution c = some job ∧
      s'.jobs.lookup c.jobId = some { job with
        taskName := task, step := next, status := .pending, claimedAt := none }
  | _, _, _ => True

theorem Committed.movedOn {s s' : Store} {β : Type} {tr : Transaction β} {a : β}
    (hc : Committed s tr a s') : JobAdvanced s s' tr a := by
  cases hc
  case advanceExecution job s₁ owned hmut =>
    refine ⟨job, owned, ?_⟩
    obtain ⟨row, -⟩ := Store.ownedExecution_eq_some.mp owned
    rw [Store.jobs_modifyResource, Store.modifyJob, hmut.jobs_eq, Table.lookup_modify_self, row]
    rfl
  all_goals exact trivial

/-- An advance takes a job one step further on its way. -/
theorem Followed.advances (ih : WorkflowsInOrder w.store t) (hs : Sound w.store) {worker : Nat}
    {c : ExecutionClaim} {task : TaskName} {next : StepName} {mutate : Mutation}
    (hm : Moved w t
      (.called worker ⟨.transaction (.advanceExecution c task next mutate), .ok true⟩) w')
    (row' : w'.store.jobs.lookup c.jobId = some job')
    (moved : advancesOf c.jobId what = [next]) :
    Followed c.jobId (⟨w, what⟩ :: t) job' := by
  obtain ⟨⟨-, -, allowed⟩, hc⟩ := hm.wrote
  obtain ⟨job, owned, hrow'⟩ := hc.movedOn
  obtain rfl := Option.some.inj (hrow'.symm.trans row')
  obtain ⟨row, -, hcstep, -⟩ := Store.ownedExecution_eq_some.mp owned
  obtain ⟨skipped, start, ahead, ordered, current, filed, -⟩ := ih.jobs c.jobId job row
  have hmember : job.step ∈ job.name.steps :=
    (hs.ledger.stage c.jobId job.lease (by simp [Store.ledger, row])).1
  have hnext := allowed.next (hcstep ▸ hmember)
  rw [← hcstep] at hnext
  obtain ⟨before, after, hinfix⟩ := hnext
  have hhere : job.name.steps = before ++ job.step :: next :: after := by
    rw [← hinfix]
    simp only [List.append_assoc, List.cons_append, List.nil_append]
  have hahead : ahead = next :: after := JobName.ahead_eq ordered current hhere
  refine .intro skipped start after ?_ ?_ (filed.imp_right fun hskips => hskips.later rfl rfl _)
    fun h => by cases h
  · rw [advances, moved, ordered, hahead]
    simp only [List.append_assoc, List.cons_append, List.nil_append]
  · rw [advances, moved, ← List.cons_append, List.getLast?_concat]

theorem WorkflowsInOrder.move (ih : WorkflowsInOrder w.store t) (hs : Sound w.store)
    (hm : Moved w t what w') : WorkflowsInOrder w'.store (⟨w, what⟩ :: t) where
  known := by
    intro j hne
    apply Nat.lt_of_lt_of_le _ (hm.nextId_le hs)
    rcases advancesOf_cases j what with hquiet | ⟨worker, c, task, next, mutate, rfl, rfl, -⟩
    · rw [advances, hquiet, List.append_nil] at hne
      exact ih.known j hne
    · obtain ⟨job, owned, -⟩ := hm.wrote.2.movedOn
      obtain ⟨row, -⟩ := Store.ownedExecution_eq_some.mp owned
      exact hs.ledger.known c.jobId job.lease (by simp [Store.ledger, row])
  jobs := by
    intro j job' row'
    rcases advancesOf_cases j what with hquiet | ⟨worker, c, task, next, mutate, rfl, rfl, hmoved⟩
    · exact .stays ih hs hm hquiet row'
    · exact .advances ih hs hm row' hmoved

theorem Run.workflowsInOrder (h : Run w t) : WorkflowsInOrder w.store t := by
  refine h.induction (motive := fun w t => WorkflowsInOrder w.store t) ?start ?move
  case start =>
    refine ⟨fun j hne => absurd rfl hne, fun j job row => ?_⟩
    cases row
  case move => exact fun w t what w' hrun hm ih => ih.move hrun.sound hm

end Moves

/-- Whatever attempts are lost, repeated or late, every job has entered the steps of its
workflow one after the other, and has succeeded only when none is left. -/
theorem workflows_are_followed (steps : List Step) :
    WorkflowsFollowed (run steps).world.store (run steps).trace :=
  (run_reaches steps).workflowsInOrder.jobs

end CoderManager
