import CoderManager.Refinement.Rows

/-!
# Requests and transactions as ledger steps

Every committed request and every transaction a worker may issue is a sequence
of ledger steps, so that what holds of a lease ledger holds of the database.
-/
namespace CoderManager
open Tables Leases
namespace Store
variable {s s' : Store}

theorem used_succ (n : UUID) : { id : UUID | id < n + 1 } = insert n { id | id < n } := by
  ext id
  simp only [Set.mem_ofPred_eq, Set.mem_insert_iff]
  exact Nat.lt_succ_iff_lt_or_eq.trans or_comm

theorem spend_steps (jobs : s'.jobs = s.jobs)
    (lifecycle : ∀ type id, s'.lifecycle type id = s.lifecycle type id)
    (nextId : s.nextId ≤ s'.nextId) : Steps catalogue s.ledger s'.ledger := by
  have heq : s'.ledger = { s.ledger with used := s.ledger.used ∪ { id | id < s'.nextId } } := by
    refine Ledger.ext ?_ ?_ ?_
    · simp [ledger, jobs]
    · funext key
      cases h : key.2 <;> simp [ledger, h, lifecycle]
    · ext id
      simp only [ledger, Set.mem_ofPred_eq, Set.mem_union]
      exact ⟨.inr, fun h => h.elim (fun h => Nat.lt_of_lt_of_le h nextId) fun h => h⟩
  rw [heq]
  exact .single (.spend _)

theorem same_steps (jobs : s'.jobs = s.jobs)
    (lifecycle : ∀ type id, s'.lifecycle type id = s.lifecycle type id)
    (nextId : s'.nextId = s.nextId) : Steps catalogue s.ledger s'.ledger :=
  spend_steps jobs lifecycle (Nat.le_of_eq nextId.symm)

/-- A staged job is one new row and the lifecycle of its resource. -/
theorem ledger_stageJob {name : JobName} {action : Action} {type : ResourceType} {id : UUID}
    {step : StepName} {c : Lifecycle} (row : s.lifecycle type id = some c) :
    (s.stageJob name action type id step).2.ledger =
      (s.ledger.enqueue s.nextId ⟨name, some (type, some id), step.task, step, .pending, 0,
        none⟩).assign (type, some id) ⟨action, .pending, some s.nextId, some step⟩ := by
  have hlifecycle : ∀ type' id', (s.stageJob name action type id step).2.lifecycle type' id' =
      if type' = type ∧ id' = id then some ⟨action, .pending, some s.nextId, some step⟩
      else s.lifecycle type' id' := by
    intro type' id'
    have h := (s.addJobExecution name step.task (some type) (some id) step).2.lifecycle_modifyLifecycle
      type id (fun _ => ⟨action, .pending, some s.nextId, some step⟩) type' id'
    have hold : (s.addJobExecution name step.task (some type) (some id) step).2.lifecycle type' id' =
        s.lifecycle type' id' := by cases type' <;> rfl
    rw [hold] at h
    refine h.trans ?_
    by_cases hkey : type' = type ∧ id' = id
    · rw [if_pos hkey, if_pos hkey, hkey.1, hkey.2, row]
      rfl
    · rw [if_neg hkey, if_neg hkey]
  refine Ledger.ext ?_ ?_ ?_
  · funext i
    simp only [stageJob, jobs_modifyLifecycle, ledger, addJobExecution, drawId, Ledger.assign,
      Ledger.enqueue, Table.lookup_insert]
    by_cases hi : i = s.nextId <;> simp [hi, JobExecution.lease]
  · funext key
    obtain ⟨type', id'⟩ := key
    cases id' with
    | none => simp [ledger, Ledger.assign, Ledger.enqueue]
    | some id' =>
        simp only [ledger, Option.bind_some, hlifecycle, Ledger.assign, Ledger.enqueue,
          Prod.mk.injEq, Option.some.injEq]
  · have hnext : (s.stageJob name action type id step).2.nextId = s.nextId + 1 := by
      simp [stageJob, addJobExecution, drawId]
    simp only [ledger, hnext, Ledger.assign, Ledger.enqueue]
    exact used_succ _

theorem stageJob_steps {name : JobName} {action : Action} {type : ResourceType} {id : UUID}
    {step : StepName} {c : Lifecycle} (row : s.lifecycle type id = some c)
    (settled : c.status = .success ∨ c.status = .error)
    (driven : resourceActions name = some action) (stage : step ∈ name.steps)
    (made : name.resourceType = some type) :
    Steps catalogue s.ledger (s.stageJob name action type id step).2.ledger := by
  rw [ledger_stageJob row]
  refine .single (.stage ?_ driven ⟨stage, rfl⟩ made ?_)
  · simp [ledger]
  · intro d hd
    simp only [ledger, Option.bind_some] at hd
    rw [row, Option.some.injEq] at hd
    exact hd ▸ settled

theorem create_steps (name : JobName) (action : Action) (type : ResourceType) (step : StepName)
    {job : JobExecution} (fresh : s.lifecycle type s.nextId = none)
    (jobs : s'.jobs = s.jobs.insert (s.nextId + 1) job)
    (lease : job.lease = ⟨name, some (type, some s.nextId), step.task, step, .pending, 0, none⟩)
    (lifecycle : ∀ type' id', s'.lifecycle type' id' =
      if type' = type ∧ id' = s.nextId then some ⟨action, .pending, some (s.nextId + 1), some step⟩
      else s.lifecycle type' id')
    (nextId : s'.nextId = s.nextId + 2) (driven : resourceActions name = some action)
    (stage : step ∈ name.steps) (made : name.resourceType = some type) :
    Steps catalogue s.ledger s'.ledger := by
  have heq : s'.ledger = (({ s.ledger with used := s.ledger.used ∪ {s.nextId} } : Ledger).enqueue
      (s.nextId + 1) ⟨name, some (type, some s.nextId), step.task, step, .pending, 0, none⟩).assign
      (type, some s.nextId) ⟨action, .pending, some (s.nextId + 1), some step⟩ := by
    refine Ledger.ext ?_ ?_ ?_
    · funext i
      simp only [ledger, jobs, Ledger.assign, Ledger.enqueue, Table.lookup_insert]
      by_cases hi : i = s.nextId + 1 <;> simp [hi, lease]
    · funext key
      obtain ⟨type', id'⟩ := key
      cases id' with
      | none => simp [ledger, Ledger.assign, Ledger.enqueue]
      | some id' =>
          simp only [ledger, Option.bind_some, lifecycle, Ledger.assign, Ledger.enqueue,
            Prod.mk.injEq, Option.some.injEq]
    · simp only [ledger, nextId, Ledger.assign, Ledger.enqueue, Set.union_singleton]
      rw [← used_succ, ← used_succ]
  rw [heq]
  refine .tail (.single (.spend {s.nextId})) (.stage ?_ driven ⟨stage, rfl⟩ made ?_)
  · simp [ledger]
  · intro c hc
    simp [ledger, fresh] at hc

theorem discardCurrentJob_steps {id : UUID} {t : Template} (row : s.templates.lookup id = some t)
    (settled : t.status = .success) :
    Steps catalogue s.ledger (s.discardCurrentJob id).ledger := by
  rcases s.discardCurrentJob_cases id with ⟨h, -⟩ | ⟨t', jobId, ht', hjob, h⟩
  · rw [h]
  · rw [row, Option.some.injEq] at ht'
    subst ht'
    have heq : (s.discardCurrentJob id).ledger = (s.ledger.assign (.template, some id)
        { t.toLifecycle with jobId := none }).discard jobId := by
      rw [h]
      refine Ledger.ext ?_ ?_ rfl
      · funext i
        by_cases hi : i = jobId <;>
          simp [ledger, Ledger.discard, Ledger.assign, Table.lookup_erase, hi]
      · funext key
        obtain ⟨type, id'⟩ := key
        cases id' with
        | none => simp [ledger, Ledger.discard, Ledger.assign]
        | some id' =>
            by_cases hid : id' = id
            · subst hid
              cases type <;> simp [ledger, Ledger.discard, Ledger.assign, lifecycle, row]
            · cases type <;> simp [ledger, Ledger.discard, Ledger.assign, lifecycle, hid,
                Table.lookup_modify_ne]
    rw [heq]
    exact .single (.discard (by simp [ledger, lifecycle, row]) settled hjob)

theorem template_discardCurrentJob {id : UUID} {t : Template}
    (row : s.templates.lookup id = some t) (settled : t.status = .success) :
    ∃ t', (s.discardCurrentJob id).templates.lookup id = some t' ∧ t'.status = .success := by
  rcases s.discardCurrentJob_cases id with ⟨h, -⟩ | ⟨t', jobId, -, -, h⟩ <;> rw [h]
  · exact ⟨t, row, settled⟩
  · exact ⟨{ t with jobId := none }, by simp [row], settled⟩

theorem enrol_steps (hs : Grounded s) {t : Template} {action : Action}
    (lifecycle : t.toLifecycle = ⟨action, .success, none, none⟩) :
    Steps catalogue s.ledger
      { s with nextId := s.nextId + 1, templates := s.templates.insert s.nextId t }.ledger := by
  have fresh : s.templates.lookup s.nextId = none := by
    cases ht : s.templates.lookup s.nextId with
    | none => rfl
    | some t => exact absurd (hs.templates _ t ht) (Nat.lt_irrefl _)
  have hspend : Steps catalogue s.ledger { s with nextId := s.nextId + 1 }.ledger :=
    spend_steps rfl (fun type id => by cases type <;> rfl) (Nat.le_succ _)
  have heq : { s with nextId := s.nextId + 1, templates := s.templates.insert s.nextId t }.ledger =
      ({ s with nextId := s.nextId + 1 }.ledger : Ledger).assign (.template, some s.nextId)
        ⟨action, .success, none, none⟩ := by
    refine Ledger.ext rfl (funext fun key => ?_) rfl
    obtain ⟨type, id⟩ := key
    cases id with
    | none => simp [ledger, Ledger.assign]
    | some id =>
        cases type <;> simp only [ledger, Option.bind_some, Store.lifecycle, Ledger.assign,
          Prod.mk.injEq, reduceCtorEq, false_and, if_false, true_and, Option.some.injEq]
        by_cases hid : id = s.nextId <;> simp [hid, lifecycle, Table.lookup_insert]
  rw [heq]
  exact hspend.tail (.enrol _ _ (by simp [ledger, Store.lifecycle, fresh]))

theorem drop_steps (keep : Key → Bool) (jobs : s'.jobs = s.jobs)
    (lifecycle : ∀ type id, s'.lifecycle type id =
      if keep (type, some id) then s.lifecycle type id else none)
    (nextId : s'.nextId = s.nextId) : Steps catalogue s.ledger s'.ledger := by
  have heq : s'.ledger = s.ledger.keep keep := by
    refine Ledger.ext ?_ ?_ ?_
    · simp [ledger, Ledger.keep, jobs]
    · funext key
      obtain ⟨type, id⟩ := key
      cases id with
      | none => simp [ledger, Ledger.keep]
      | some id => simp [ledger, Ledger.keep, lifecycle]
    · simp [ledger, Ledger.keep, nextId]
  rw [heq]
  exact .single (.drop keep)

theorem rename_steps {type : ResourceType} {id : UUID} {c : Lifecycle} (action : Action)
    (row : s.lifecycle type id = some c) (settled : c.status = .success) (jobs : s'.jobs = s.jobs)
    (lifecycle : ∀ type' id', s'.lifecycle type' id' =
      if type' = type ∧ id' = id then some { c with action } else s.lifecycle type' id')
    (nextId : s'.nextId = s.nextId) : Steps catalogue s.ledger s'.ledger := by
  have heq : s'.ledger = s.ledger.assign (type, some id) { c with action } := by
    refine Ledger.ext ?_ ?_ ?_
    · simp [ledger, Ledger.assign, jobs]
    · funext key
      obtain ⟨type', id'⟩ := key
      cases id' with
      | none => simp [ledger, Ledger.assign]
      | some id' =>
          simp only [ledger, Option.bind_some, lifecycle, Ledger.assign, Prod.mk.injEq,
            Option.some.injEq]
    · simp [ledger, Ledger.assign, nextId]
  rw [heq]
  exact .single (.rename action (by simp [ledger, row]) settled)

theorem lifecycle_instance {id : UUID} {i : Instance} (row : s.instances.lookup id = some i) :
    s.lifecycle .instance id = some i.toLifecycle := by simp [lifecycle, row]

theorem lifecycle_template {id : UUID} {t : Template} (row : s.templates.lookup id = some t) :
    s.lifecycle .template id = some t.toLifecycle := by simp [lifecycle, row]

theorem lifecycle_assignment {id : UUID} {a : TemplateAssignment}
    (row : s.assignments.lookup id = some a) :
    s.lifecycle .templateAssignment id = some a.toLifecycle := by simp [lifecycle, row]

theorem lifecycle_workspace {id : UUID} {w : Workspace} (row : s.workspaces.lookup id = some w) :
    s.lifecycle .workspace id = some w.toLifecycle := by simp [lifecycle, row]

theorem requestInstanceUpdate_steps {id : UUID} {i : Instance}
    (row : s.instances.lookup id = some i)
    (available : i.status = .success ∨ (i.action = .updating ∧ i.step = some .instanceUpdateStep01 ∧
      i.status.inProgress = true)) :
    Steps catalogue s.ledger (s.requestInstanceUpdate id i).ledger := by
  unfold requestInstanceUpdate
  split
  · exact .refl
  · rename_i hbusy
    refine stageJob_steps (lifecycle_instance row) (.inl ?_) rfl (by decide) rfl
    rcases available with h | ⟨ha, -, hp⟩
    · exact h
    · simp [ha, hp] at hbusy

end Store

open Store in
theorem Accepted.steps {s s' : Store} {r : Request} (h : Accepted s r s')
    (hl : Consistent catalogue s.ledger) (hs : Grounded s) :
    Steps catalogue s.ledger s'.ledger := by
  -- The tables of the resources are left alone.
  have other : ∀ {s₁ : Store}, s₁.jobs = s.jobs → s₁.instances = s.instances →
      s₁.templates = s.templates → s₁.assignments = s.assignments →
      s₁.workspaces = s.workspaces → s.nextId ≤ s₁.nextId →
      Steps catalogue s.ledger s₁.ledger := by
    intro s₁ hj hi ht ha hw hn
    refine spend_steps hj (fun type id => ?_) hn
    cases type <;> simp only [lifecycle, hi, ht, ha, hw]
  have bumped : ∀ {s₁ : Store} (id : UUID), s₁.jobs = s.jobs → s₁.instances = s.instances →
      s₁.templates = s.templates → s₁.assignments = s.assignments →
      s₁.workspaces = s.workspaces → s.nextId ≤ s₁.nextId →
      Steps catalogue s.ledger (s₁.bumpSystemParameterRevision id).ledger := by
    intro s₁ id hj hi ht ha hw hn
    refine spend_steps hj (fun type id' => ?_) hn
    cases type
    case template =>
      simp only [lifecycle, bumpSystemParameterRevision, ht, Table.lookup_modify]
      split <;> simp [Option.map_map, Function.comp_def]
    all_goals simp only [lifecycle, bumpSystemParameterRevision, hi, ha, hw]
  have freshInstance : s.lifecycle .instance s.nextId = none := by
    cases hi : s.instances.lookup s.nextId with
    | none => simp [lifecycle, hi]
    | some i => exact absurd (hs.instances _ i hi) (Nat.lt_irrefl _)
  have freshAssignment : s.lifecycle .templateAssignment s.nextId = none := by
    cases ha : s.assignments.lookup s.nextId with
    | none => simp [lifecycle, ha]
    | some a => exact absurd (hs.assignments _ a ha).1 (Nat.lt_irrefl _)
  have freshWorkspace : s.lifecycle .workspace s.nextId = none := by
    cases hw : s.workspaces.lookup s.nextId with
    | none => simp [lifecycle, hw]
    | some w => exact absurd (hs.workspaces _ w hw).1 (Nat.lt_irrefl _)
  cases h with
  | createInstance database slugFree =>
      refine create_steps .instanceCreate .creating .instance .instanceCreateStep01 freshInstance rfl
        rfl (fun type id => ?_) rfl rfl (by decide) rfl
      cases type <;> simp only [lifecycle, Table.lookup_insert, reduceCtorEq, false_and, if_false,
        true_and]
      by_cases hid : id = s.nextId <;> simp [hid]
  | requestInstanceDeletion row unassigned settled alive entry =>
      refine stageJob_steps (lifecycle_instance row) ?_ rfl ?_ rfl
      · exact settled.imp id And.right
      · rcases entry with ⟨rfl, -⟩ | ⟨rfl, -⟩ <;> decide
  | requestSync idle retried =>
      refine (other rfl rfl rfl rfl rfl (Nat.le_refl _)).trans
        (stageJob_steps (lifecycle_instance idle.1) ?_ rfl (by decide) rfl)
      exact idle.2.2.2.imp id And.left
  | requestStart idle =>
      exact stageJob_steps (lifecycle_instance idle.1) (idle.2.2.2.imp id And.left) rfl
        (by decide) rfl
  | requestStop idle =>
      exact stageJob_steps (lifecycle_instance idle.1) (idle.2.2.2.imp id And.left) rfl
        (by decide) rfl
  | createKubernetesProvider row settled =>
      exact (other rfl rfl rfl rfl rfl (Nat.le_refl _)).trans
        (stageJob_steps (lifecycle_instance row) (.inl settled) rfl (by decide) rfl)
  | createDatabase => exact other rfl rfl rfl rfl rfl (Nat.le_succ _)
  | updateDatabase => exact other rfl rfl rfl rfl rfl (Nat.le_refl _)
  | deleteDatabase => exact other rfl rfl rfl rfl rfl (Nat.le_refl _)
  | requestDatabaseSync =>
      have heq : (s.addJobExecution .databaseSync StepName.databaseSyncStep01.task none none
          .databaseSyncStep01).2.ledger = s.ledger.enqueue s.nextId
            ⟨.databaseSync, none, StepName.databaseSyncStep01.task, .databaseSyncStep01, .pending, 0,
              none⟩ := by
        refine Ledger.ext ?_ ?_ (used_succ _)
        · funext i
          simp only [ledger, addJobExecution, drawId, Ledger.enqueue, Table.lookup_insert]
          by_cases hi : i = s.nextId <;> simp [hi, JobExecution.lease]
        · funext key
          obtain ⟨type, id⟩ := key
          cases id <;> cases type <;> rfl
      rw [heq]
      exact .single (.system (by simp [ledger]) ⟨by decide, rfl⟩)
  | createMember available free added =>
      refine .trans ?_ (requestInstanceUpdate_steps ?_ available.2.2)
      · exact other rfl rfl rfl rfl rfl (Nat.le_succ _)
      · exact available.1
  | updateMemberRole available =>
      refine .trans ?_ (requestInstanceUpdate_steps ?_ available.2.2)
      · exact other rfl rfl rfl rfl rfl (Nat.le_refl _)
      · exact available.1
  | keepMemberRole => exact .refl
  | requestMemberDeletion available =>
      refine .trans ?_ (requestInstanceUpdate_steps ?_ available.2.2)
      · exact other rfl rfl rfl rfl rfl (Nat.le_refl _)
      · exact available.1
  | createTemplate free row =>
      subst row
      exact enrol_steps hs rfl
  | @updateTemplate id payload t calm =>
      obtain ⟨row, settled, -⟩ := calm
      have hdiscard := discardCurrentJob_steps row settled
      obtain ⟨t', row', settled'⟩ := template_discardCurrentJob row settled
      have hstep := (hl.steps hdiscard).settled (.template, some id) t'.toLifecycle
        (by simp [ledger, lifecycle, row']) settled'
      have hrow : (s.discardCurrentJob id).lifecycle .template id = some t'.toLifecycle := by
        simp [lifecycle, row']
      refine hdiscard.trans (rename_steps .updated hrow settled' rfl (fun type id' => ?_) rfl)
      cases type <;> simp only [lifecycle, reduceCtorEq, false_and, if_false, true_and]
      by_cases hid : id' = id
      · simp [hid, row', ← hstep, ← settled']
      · simp [hid, Table.lookup_modify_ne]
  | keepTemplate => exact .refl
  | @deleteTemplate id t _ _ _ row settled =>
      refine (discardCurrentJob_steps row settled).trans
        (drop_steps (fun key => key ≠ (.template, some id)) rfl (fun type id' => ?_) rfl)
      cases type <;> simp only [lifecycle, ne_eq, Prod.mk.injEq, reduceCtorEq, false_and,
        not_false_eq_true, decide_true, if_true, true_and, Option.some.injEq]
      by_cases hid : id' = id <;> simp [hid, Table.lookup_erase]
  | requestTemplateSync calm =>
      obtain ⟨row, settled, -⟩ := calm
      obtain ⟨t', row', settled'⟩ := template_discardCurrentJob row settled
      exact (discardCurrentJob_steps row settled).trans
        (stageJob_steps (by simp [lifecycle, row']) (.inl settled') rfl (by decide) rfl)
  | createImage => exact other rfl rfl rfl rfl rfl (Nat.le_succ _)
  | deleteImage => exact other rfl rfl rfl rfl rfl (Nat.le_refl _)
  | createUserParameter => exact other rfl rfl rfl rfl rfl (Nat.le_succ _)
  | createSystemParameter => exact bumped _ rfl rfl rfl rfl rfl (Nat.le_succ _)
  | updateParameter => exact other rfl rfl rfl rfl rfl (Nat.le_refl _)
  | updateSystemValue => exact bumped _ rfl rfl rfl rfl rfl (Nat.le_refl _)
  | deleteUserParameter => exact other rfl rfl rfl rfl rfl (Nat.le_refl _)
  | @deleteSystemParameter id =>
      refine (bumped id rfl rfl rfl rfl rfl (Nat.le_refl _)).trans
        (same_steps rfl (fun type id => ?_) rfl)
      cases type <;> rfl
  | putAssignment =>
      refine create_steps .templateAssignmentCreate .creating .templateAssignment
        .templateAssignmentCreateStep01 freshAssignment rfl rfl (fun type id => ?_) rfl rfl
        (by decide) rfl
      cases type <;> simp only [lifecycle, Table.lookup_insert, reduceCtorEq, false_and, if_false,
        true_and]
      by_cases hid : id = s.nextId <;> simp [hid]
  | keepAssignment => exact .refl
  | requestAssignmentDeletion _ row _ _ _ settled =>
      exact stageJob_steps (by simp [lifecycle, row]) (.inl settled) rfl (by decide) rfl
  | keepAssignmentDeletion => exact .refl
  | createWorkspace =>
      refine create_steps .workspaceCreate .creating .workspace .workspaceCreateStep01
        freshWorkspace rfl rfl (fun type id => ?_) rfl rfl (by decide) rfl
      cases type <;> simp only [lifecycle, Table.lookup_insert, reduceCtorEq, false_and, if_false,
        true_and]
      by_cases hid : id = s.nextId <;> simp [hid]
  | @updateWorkspace id payload w i t workspaces f row idle place settled changed same =>
      subst changed
      have hsame : ∀ type id', ({ s with workspaces := s.workspaces.modify id f } : Store).lifecycle
          type id' = s.lifecycle type id' := by
        intro type id'
        cases type <;> simp only [lifecycle]
        by_cases hid : id' = id
        · cases hw : s.workspaces.lookup id <;> simp [hid, hw, same]
        · simp [Table.lookup_modify_ne, hid]
      have hedit : Steps catalogue s.ledger
          { s with workspaces := s.workspaces.modify id f }.ledger := same_steps rfl hsame rfl
      have hrow := (hsame .workspace id).trans (by simp [lifecycle, row] : _ = some w.toLifecycle)
      exact hedit.trans
        (stageJob_steps hrow (Status.inProgress_eq_false.mp idle) rfl (by decide) rfl)
  | keepWorkspace => exact .refl
  | requestWorkspaceDeletion row idle =>
      exact stageJob_steps (by simp [lifecycle, row])
        (Status.inProgress_eq_false.mp idle) rfl (by decide) rfl

/-- An attempt advances within the workflow of its own job. -/
theorem Advances.mem_steps {h : WorkerHistory} {c : ExecutionClaim} {step : StepName}
    {mutate : Mutation} (ha : Advances h c step mutate) {name : JobName}
    (hc : c.step ∈ name.steps) : step ∈ name.steps := by
  cases ha with
  | createSchema at_ | createInstance at_ _ | updateInstance at_ _ _ _ _ | startInstance at_ _ _ _ _
  | stopWorkspaces at_ | removeWorkspaces at_ _ _ | removeInstance at_ _ _ | removeSchema at_ _ _ =>
      rw [at_] at hc
      revert hc
      cases name <;> decide

open Store in
/-- A callback leaves jobs and lifecycles alone, unless it renames an
assignment. -/
theorem Mutated.same {s s' : Store} {job : JobExecution} {m : Mutation} (h : Mutated s job m s')
    (hm : m ≠ .markCreated) :
    s'.jobs = s.jobs ∧ (∀ type id, s'.lifecycle type id = s.lifecycle type id) ∧
      s'.nextId = s.nextId := by
  -- The instance row is rewritten with its own lifecycle.
  have rewritten : ∀ {id : UUID} {i i' : Instance}, s.ownedInstance job = some (id, i) →
      i'.toLifecycle = i.toLifecycle → ∀ type id', ({ s with
        instances := s.instances.modify id fun _ => i' } : Store).lifecycle type id' =
          s.lifecycle type id' := by
    intro id i i' row same type id'
    obtain ⟨-, -, hi⟩ := ownedInstance_eq_some.mp row
    cases type <;> simp only [lifecycle]
    by_cases hid : id' = id
    · simp [hid, hi, same]
    · simp [Table.lookup_modify_ne, hid]
  cases h with
  | none => exact ⟨rfl, fun _ _ => rfl, rfl⟩
  | storeApplicationName row => exact ⟨rfl, rewritten row rfl, rfl⟩
  | promotePassword row => exact ⟨rfl, rewritten row rfl, rfl⟩
  | markStopped row => exact ⟨rfl, rewritten row rfl, rfl⟩
  | markCreated => exact absurd rfl hm
  | failMembers => exact ⟨rfl, fun type id => by cases type <;> rfl, rfl⟩
  | deferMembers => exact ⟨rfl, fun type id => by cases type <;> rfl, rfl⟩
  | @convergeWorkspace _ _ _ id f _ _ same =>
      refine ⟨rfl, fun type id' => ?_, rfl⟩
      cases type <;> simp only [lifecycle]
      by_cases hid : id' = id
      · cases hw : s.workspaces.lookup id <;> simp [hid, hw, same]
      · simp [Table.lookup_modify_ne, hid]
  | keepWorkspace => exact ⟨rfl, fun _ _ => rfl, rfl⟩

open Store in
theorem Mutated.ledger_eq {s s' : Store} {job : JobExecution} {m : Mutation}
    (h : Mutated s job m s') (hm : m ≠ .markCreated) : s'.ledger = s.ledger := by
  obtain ⟨hj, hl, hn⟩ := h.same hm
  exact ledger_congr hj hl hn

theorem Concludes.ne_markCreated {c : ExecutionClaim} {m : Mutation} {delete : Bool}
    (h : Concludes c m delete) (hc : c.step ≠ .templateAssignmentCreateStep01) :
    m ≠ .markCreated := by
  cases h with
  | createTemplate step => exact absurd step hc
  | bootstrapAdmin | stopInstance | sync | convergeWorkspace | deleteWorkspace =>
      rintro ⟨⟩

theorem Releases.ne_markCreated {h : WorkerHistory} {c : ExecutionClaim} {m : Mutation}
    (hr : Releases h c m) : m ≠ .markCreated := by
  cases hr <;> rintro ⟨⟩

theorem Advances.ne_markCreated {h : WorkerHistory} {c : ExecutionClaim} {step : StepName}
    {m : Mutation} (ha : Advances h c step m) : m ≠ .markCreated := by
  cases ha <;> rintro ⟨⟩

namespace Store
variable {s s₁ : Store} {c : ExecutionClaim} {job : JobExecution}

theorem ownedExecution_row (ho : s.ownedExecution c = some job) :
    s.jobs.lookup c.jobId = some job ∧ job.status = .running ∧
      Matches catalogue s.ledger c.jobId job.lease := by
  obtain ⟨hrow, -, -, -, hrun, hm⟩ := ownedExecution_eq_some.mp ho
  exact ⟨hrow, hrun, hm⟩

theorem settle_drop_steps {s' : Store} (row : s.jobs.lookup c.jobId = some job)
    (running : job.status = .running) (current : Matches catalogue s.ledger c.jobId job.lease)
    (keep : Key → Bool) (jobs : s'.jobs = s.jobs.modify c.jobId fun job =>
      { job with status := .success, claimedAt := none })
    (lifecycle : ∀ type id, s'.lifecycle type id =
      if keep (type, some id) then s.lifecycle type id else none)
    (own : ∀ type id, job.resourceType = some type → job.resourceId = some id →
      keep (type, some id) = false)
    (nextId : s'.nextId = s.nextId) : Steps catalogue s.ledger s'.ledger := by
  refine (settleExecution_steps row running current).trans (drop_steps keep ?_ ?_ ?_)
  · simp [settleExecution, modifyJob, jobs]
  · intro type id
    rw [lifecycle, settleExecution, lifecycle_modifyResource, lifecycle_modifyJob]
    by_cases hk : keep (type, some id) = true
    · have hne : job.lease.owner ≠ some (type, some id) := by
        intro hown
        simp only [JobExecution.lease, Option.map_eq_some_iff, Prod.mk.injEq] at hown
        obtain ⟨type', htype, rfl, hid⟩ := hown
        rw [own _ _ htype hid] at hk
        cases hk
      simp [hk, hne]
    · simp [hk]
  · simp [settleExecution, modifyJob, nextId]

theorem matches_congr (current : Matches catalogue s.ledger c.jobId job.lease)
    (same : ∀ type id, job.resourceType = some type → job.resourceId = some id →
      s₁.lifecycle type id = s.lifecycle type id) :
    Matches catalogue s₁.ledger c.jobId job.lease := by
  intro key hkey
  obtain ⟨d, hd, hrest⟩ := current key hkey
  refine ⟨d, ?_, hrest⟩
  obtain ⟨type, id⟩ := key
  cases id with
  | none => simp [ledger] at hd
  | some id =>
      simp only [JobExecution.lease, Option.map_eq_some_iff, Prod.mk.injEq] at hkey
      obtain ⟨type', htype, rfl, hid⟩ := hkey
      simpa [ledger, same _ _ htype hid] using hd

/-- Every resource but the workspaces `p` selects. -/
def keepWorkspaces (s : Store) (p : UUID → Workspace → Bool) : Key → Bool
  | (.workspace, some id) => !(s.workspaces.lookup id).any (p id)
  | _ => true

theorem map_filter_not {α β : Type} {p : α → Bool} {f : α → β} (o : Option α) :
    (o.filter fun a => !p a).map f = if !o.any p then o.map f else none := by
  cases o with
  | none => rfl
  | some a => cases hp : p a <;> simp [Option.filter, hp]

theorem lifecycle_deleteWhere (p : UUID → Workspace → Bool) (id : UUID) :
    ((s.workspaces.deleteWhere p).lookup id).map Workspace.toLifecycle =
      if s.keepWorkspaces p (.workspace, some id) then s.lifecycle .workspace id else none := by
  rw [Table.lookup_deleteWhere]
  exact map_filter_not _

theorem finalizeMembers_steps (id : UUID) (memberIds : List UUID) (name : String) :
    Steps catalogue s.ledger (Store.finalizeMembers { s with
      instances := s.instances.modify id fun i => { i with argocdApplicationName := some name } }
      id memberIds).ledger := by
  refine drop_steps (s.keepWorkspaces fun _ w => (s.members.lookup w.memberId).any fun m =>
    memberIds.contains w.memberId && m.instanceId == id && m.status == .running &&
      m.action == .deleting) rfl (fun type id' => ?_) rfl
  cases type with
  | «instance» =>
      by_cases hid : id' = id
      · cases hi : s.instances.lookup id <;>
          simp [lifecycle, finalizeMembers, keepWorkspaces, hid, hi]
      · simp [lifecycle, finalizeMembers, keepWorkspaces, hid, Table.lookup_modify_ne]
  | template => rfl
  | templateAssignment => rfl
  | workspace => exact lifecycle_deleteWhere _ id'

theorem lifecycle_finalizeMembers (id : UUID) (memberIds : List UUID) (name : String) (id' : UUID) :
    (Store.finalizeMembers { s with
      instances := s.instances.modify id fun i => { i with argocdApplicationName := some name } }
      id memberIds).lifecycle .instance id' = s.lifecycle .instance id' := by
  by_cases hid : id' = id
  · cases hi : s.instances.lookup id <;> simp [lifecycle, finalizeMembers, hid, hi]
  · simp [lifecycle, finalizeMembers, hid, Table.lookup_modify_ne]

theorem lifecycle_deleteLifecycle (type type' : ResourceType) (id id' : UUID) :
    (s.deleteLifecycle type id).lifecycle type' id' =
      if type' = type ∧ id' = id then none else s.lifecycle type' id' := by
  by_cases hid : id' = id
  · cases type <;> cases type' <;> simp [deleteLifecycle, lifecycle, Table.lookup_erase, hid]
  · cases type <;> cases type' <;> simp [deleteLifecycle, lifecycle, Table.lookup_erase, hid]

theorem deleteResource_steps (row : s.jobs.lookup c.jobId = some job)
    (running : job.status = .running) (current : Matches catalogue s.ledger c.jobId job.lease) :
    Steps catalogue s.ledger ((s.modifyJob c.jobId fun job =>
      { job with status := .success, claimedAt := none }).deleteResource job).ledger := by
  refine settle_drop_steps row running current (fun key => some key ≠ job.lease.owner) ?_
    (fun type id => ?_) (fun type id htype hid => ?_) ?_
  · unfold deleteResource
    split
    · rename_i type id _ _
      cases type <;> rfl
    · rfl
  · unfold deleteResource
    split
    · rename_i type' id' htype hid
      rw [lifecycle_deleteLifecycle, lifecycle_modifyJob]
      by_cases he : type = type' ∧ id = id' <;> simp [JobExecution.lease, htype, hid, he]
    · rename_i hno
      have howner : some (type, some id) ≠ job.lease.owner := by
        intro h
        simp only [JobExecution.lease] at h
        obtain ⟨type', htype, heq⟩ := Option.map_eq_some_iff.mp h.symm
        rw [Prod.mk.injEq] at heq
        exact hno _ _ htype heq.2
      simp [howner]
  · simp [JobExecution.lease, htype, hid]
  · unfold deleteResource
    split
    · rename_i type id _ _
      cases type <;> rfl
    · rfl

theorem finalizeUpdate_steps {id : UUID} {i : Instance} (memberIds : List UUID) (name : String)
    (owned : s.ownedExecution c = some job) (row' : s.ownedInstance job = some (id, i)) :
    Steps catalogue s.ledger ((Store.finalizeMembers { s with
      instances := s.instances.modify id fun i => { i with argocdApplicationName := some name } }
      id memberIds).settleExecution c job).ledger := by
  obtain ⟨row, running, current⟩ := ownedExecution_row owned
  obtain ⟨htype, hid, -⟩ := ownedInstance_eq_some.mp row'
  refine (finalizeMembers_steps id memberIds name).trans (settleExecution_steps row running ?_)
  refine matches_congr current fun type id' ht hi => ?_
  rw [htype, Option.some.injEq] at ht
  subst ht
  exact lifecycle_finalizeMembers id memberIds name id'

/-- The lifecycles that are left when an instance goes with everything that belongs
to it. -/
def keepInstance (s : Store) (id : UUID) : Key → Bool
  | (.instance, some id') => id' ≠ id
  | (.templateAssignment, some id') => !(s.assignments.lookup id').any fun a => a.instanceId == id
  | key => s.keepWorkspaces (fun _ w => w.instanceId == id) key

/-- The last deletion step settles its job and erases the instance with
everything that belongs to it. -/
theorem removeInstance_steps {id : UUID} {i : Instance} (row : s.jobs.lookup c.jobId = some job)
    (running : job.status = .running) (current : Matches catalogue s.ledger c.jobId job.lease)
    (row' : s.ownedInstance job = some (id, i)) :
    Steps catalogue s.ledger ((s.modifyJob c.jobId fun job =>
      { job with status := .success, claimedAt := none }).removeInstance id).ledger := by
  obtain ⟨htype, hid, -⟩ := ownedInstance_eq_some.mp row'
  refine settle_drop_steps row running current (s.keepInstance id) rfl (fun type id' => ?_)
    (fun type id' ht hi => ?_) rfl
  · cases type with
    | «instance» =>
        by_cases he : id' = id <;> simp [lifecycle, keepInstance, removeInstance, modifyJob,
          Table.lookup_erase, he]
    | template => rfl
    | templateAssignment =>
        simp only [lifecycle, removeInstance, modifyJob, Table.lookup_deleteWhere, keepInstance]
        exact map_filter_not _
    | workspace => exact s.lifecycle_deleteWhere _ id'
  · rw [htype, Option.some.injEq] at ht
    rw [hid, Option.some.injEq] at hi
    simp [← ht, ← hi, keepInstance]

end Store

open Store in
theorem Committed.steps {s s' : Store} {β : Type} {t : Transaction β} {a : β}
    {h : WorkerHistory} (hc : Committed s t a s') (hg : Discipline.transaction h t)
    (hl : Consistent catalogue s.ledger) : Steps catalogue s.ledger s'.ledger := by
  have rewritten : ∀ {id : UUID} {f : Instance → Instance},
      (∀ i, (f i).toLifecycle = i.toLifecycle) →
      Steps catalogue s.ledger { s with instances := s.instances.modify id f }.ledger := by
    intro id f hf
    refine same_steps rfl (fun type id' => ?_) rfl
    cases type <;> simp only [lifecycle]
    by_cases hid : id' = id
    · cases hi : s.instances.lookup id <;> simp [hid, hi, hf]
    · simp [Table.lookup_modify_ne, hid]
  cases hc with
  | claimRefused | heartbeatStale | advanceStale | completeStale | deferStale | failStale
  | retryRefused | retryNamed | bootstrapStale | bootstrapKept | finalizeStale | startedStale
  | removeStale | stateKept | deploymentApplied | deploymentMissing | removeAssignmentStale
  | remoteIdsStale => exact .refl
  | @claimExecution jobId job row idle current =>
      rw [ledger_put (fun _ => { job with
        status := .running, attempt := job.attempt + 1, claimedAt := some s.now }) _ row rfl]
      exact .single (.claim s.now (by simp [ledger, row]) idle current)
  | heartbeatExecution owned =>
      obtain ⟨row, running, current⟩ := ownedExecution_row owned
      rw [ledger_modifyJob _ row rfl]
      exact .single (.heartbeat s.now (by simp [ledger, row]) running current)
  | advanceExecution owned mutated =>
      obtain ⟨-, rfl, hadv⟩ := hg
      obtain ⟨row, running, current⟩ := ownedExecution_row owned
      have hm := hadv.ne_markCreated
      rw [ledger_put _ _ ((mutated.same hm).1 ▸ row) rfl, mutated.ledger_eq hm]
      exact .single (.advance (by simp [ledger, row]) running current
        ⟨hadv.mem_steps (owned_mem_steps hl owned), rfl⟩)
  | @completeExecution c mutate job s₁ owned mutated =>
      obtain ⟨-, hconc⟩ := hg
      obtain ⟨row, running, current⟩ := ownedExecution_row owned
      by_cases hm : mutate = .markCreated
      · subst hm
        cases mutated with
        | @markCreated id htype hid =>
          have hsettled : (s.settleExecution c job).lifecycle .templateAssignment id =
              (s.lifecycle .templateAssignment id).map
                fun r => { r with status := .success, step := none } := by
            simp [settleExecution, lifecycle_modifyResource, JobExecution.lease, htype, hid]
          obtain ⟨d, hd, -⟩ := current (.templateAssignment, some id)
            (by simp [JobExecution.lease, htype, hid])
          simp only [ledger, Option.bind_some] at hd
          rw [hd] at hsettled
          refine (settleExecution_steps row running current).trans
            (rename_steps .created hsettled rfl ?_ (fun type' id' => ?_) ?_)
          · simp [settleExecution, modifyJob]
          · rw [settleExecution, settleExecution, lifecycle_modifyResource,
              lifecycle_modifyResource, lifecycle_modifyJob, lifecycle_modifyJob,
              lifecycle_modifyLifecycle]
            by_cases hkey : type' = .templateAssignment ∧ id' = id
            · obtain ⟨rfl, rfl⟩ := hkey
              simp [JobExecution.lease, htype, hid, hd]
            · rw [if_neg hkey, if_neg hkey]
          · simp [settleExecution, modifyJob]
      · obtain ⟨hj, -⟩ := mutated.same hm
        have heq := mutated.ledger_eq hm
        rw [← heq] at current
        rw [← heq]
        exact settleExecution_steps (hj ▸ row) running current
  | @completeDeletion c mutate job s₁ owned mutated =>
      obtain ⟨-, hconc⟩ := hg
      obtain ⟨row, running, current⟩ := ownedExecution_row owned
      have hm : mutate ≠ .markCreated := by
        cases hconc
        rintro ⟨⟩
      obtain ⟨hj, -⟩ := mutated.same hm
      have heq := mutated.ledger_eq hm
      rw [← heq] at current
      rw [← heq]
      exact deleteResource_steps (hj ▸ row) running current
  | deferExecution owned mutated =>
      obtain ⟨row, running, current⟩ := ownedExecution_row owned
      have hm := hg.2.ne_markCreated
      have heq := mutated.ledger_eq hm
      rw [← heq] at current
      rw [← heq]
      exact releaseExecution_steps ((mutated.same hm).1 ▸ row) running current (.inl rfl)
  | failExecution owned mutated =>
      obtain ⟨row, running, current⟩ := ownedExecution_row owned
      have hm := hg.2.ne_markCreated
      have heq := mutated.ledger_eq hm
      rw [← heq] at current
      rw [← heq]
      exact releaseExecution_steps ((mutated.same hm).1 ▸ row) running current (.inr rfl)
  | retryReclaimed row running _ _ current =>
      rw [ledger_put _ _ row rfl]
      exact .single (.release (by simp [ledger, row]) running current (.inl rfl))
  | bootstrapDrawn => exact rewritten fun _ => rfl
  | claimMembers => exact same_steps rfl (fun type id => by cases type <;> rfl) rfl
  | claimCleanup => exact same_steps rfl (fun type id => by cases type <;> rfl) rfl
  | @finalizeUpdate c memberIds name job id i s₁ owned row' final =>
      exact final ▸ finalizeUpdate_steps memberIds name owned row'
  | @finalizeAgain c memberIds name job id i s₁ owned row' final =>
      obtain ⟨-, -, hrow⟩ := ownedInstance_eq_some.mp row'
      have hsettled : s₁.lifecycle .instance id =
          some { i.toLifecycle with status := .success, step := none } := by
        obtain ⟨htype, hid, -⟩ := ownedInstance_eq_some.mp row'
        simp [final, settleExecution, lifecycle_modifyResource, lifecycle_finalizeMembers,
          JobExecution.lease, htype, hid, lifecycle_instance hrow]
      exact (final ▸ finalizeUpdate_steps memberIds name owned row' : Steps _ _ s₁.ledger).trans
        (stageJob_steps hsettled (.inl rfl) rfl (by decide) rfl)
  | storeStartedApplication => exact rewritten fun _ => rfl
  | removeLocalConfiguration owned row' =>
      obtain ⟨row, running, current⟩ := ownedExecution_row owned
      exact removeInstance_steps row running current row'
  | recordInstanceState => exact rewritten fun _ => rfl
  | prepareDeployment => exact same_steps rfl (fun type id => by cases type <;> rfl) rfl
  | storeTemplateRemoteIds => exact same_steps rfl (fun type id => by cases type <;> rfl) rfl
  | finishDeployment => exact same_steps rfl (fun type id => by cases type <;> rfl) rfl
  | @removeLocalAssignment c snapshot job id owned htype hid =>
      obtain ⟨row, running, current⟩ := ownedExecution_row owned
      refine settle_drop_steps row running current
        (fun key => key ≠ (.templateAssignment, some id) && s.keepWorkspaces (fun _ w =>
          w.templateId == snapshot.templateId && w.instanceId == snapshot.instanceId) key)
        rfl (fun type id' => ?_) (fun type id' ht hi => ?_) rfl
      · cases type with
        | templateAssignment =>
            by_cases he : id' = id <;> simp [lifecycle, keepWorkspaces, Table.lookup_erase, he]
        | workspace => simpa [lifecycle] using s.lifecycle_deleteWhere _ id'
        | _ => simp [lifecycle, keepWorkspaces, modifyJob]
      · rw [htype, Option.some.injEq] at ht
        rw [hid, Option.some.injEq] at hi
        simp [← ht, ← hi]
  | @storeWorkspaceRemoteIds c workspaceId buildId job id =>
      refine same_steps rfl (fun type id' => ?_) rfl
      cases type <;> simp only [lifecycle]
      by_cases hid : id' = id
      · cases hw : s.workspaces.lookup id <;> simp [hid, hw]
      · simp [Table.lookup_modify_ne, hid]

end CoderManager
