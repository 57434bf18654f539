import CoderManager.Runs
import CoderManager.Sessions

/-!
# What leaves the database pool alone

Every move of the manager but five leaves the databases and the allocations as
they are, and neither adds nor removes an instance.
-/
namespace CoderManager
open Tables Leases Programs

/-- The pool and the set of instances are the same before and after. -/
structure LeavesPool (s s' : Store) : Prop where
  databases : s'.databases = s.databases
  allocations : s'.allocations = s.allocations
  instances : ∀ id, (s'.instances.lookup id).isSome = (s.instances.lookup id).isSome
  nextId : s.nextId ≤ s'.nextId

section LeavesPool
open Store
variable {s s' s'' : Store}

theorem LeavesPool.refl (s : Store) : LeavesPool s s :=
  ⟨rfl, rfl, fun _ => rfl, Nat.le_refl _⟩

theorem LeavesPool.trans (h : LeavesPool s s') (h' : LeavesPool s' s'') : LeavesPool s s'' :=
  ⟨h'.databases.trans h.databases, h'.allocations.trans h.allocations,
    fun id => (h'.instances id).trans (h.instances id), Nat.le_trans h.nextId h'.nextId⟩

theorem LeavesPool.of_eq (databases : s'.databases = s.databases)
    (allocations : s'.allocations = s.allocations) (instances : s'.instances = s.instances)
    (nextId : s.nextId ≤ s'.nextId) : LeavesPool s s' :=
  ⟨databases, allocations, fun _ => by rw [instances], nextId⟩

theorem leavesPool_instances (id : UUID) (g : Instance → Instance) :
    LeavesPool s { s with instances := s.instances.modify id g } := by
  refine ⟨rfl, rfl, fun id' => ?_, Nat.le_refl _⟩
  by_cases h : id' = id <;> simp [Table.lookup_modify, h]

theorem leavesPool_modifyJob (jobId : UUID) (g : JobExecution → JobExecution) :
    LeavesPool s (s.modifyJob jobId g) := .of_eq rfl rfl rfl (Nat.le_refl _)

theorem leavesPool_modifyLifecycle (type : ResourceType) (id : UUID) (f : Lifecycle → Lifecycle) :
    LeavesPool s (s.modifyLifecycle type id f) := by
  cases type with
  | «instance» => exact leavesPool_instances id _
  | template => exact .of_eq rfl rfl rfl (Nat.le_refl _)
  | templateAssignment => exact .of_eq rfl rfl rfl (Nat.le_refl _)
  | workspace => exact .of_eq rfl rfl rfl (Nat.le_refl _)

theorem leavesPool_modifyResource (job : JobExecution) (f : Lifecycle → Lifecycle) :
    LeavesPool s (s.modifyResource job f) := by
  unfold modifyResource
  split
  · exact leavesPool_modifyLifecycle _ _ _
  · exact .refl s

theorem leavesPool_put (jobId : UUID) (g : JobExecution → JobExecution) (job : JobExecution)
    (f : Lifecycle → Lifecycle) : LeavesPool s ((s.modifyJob jobId g).modifyResource job f) :=
  (leavesPool_modifyJob jobId g).trans (leavesPool_modifyResource job f)

theorem leavesPool_stageJob (name : JobName) (action : Action) (type : ResourceType) (id : UUID)
    (step : StepName) : LeavesPool s (s.stageJob name action type id step).2 := by
  have h : LeavesPool s (s.addJobExecution name step.task (some type) (some id) step).2 :=
    .of_eq rfl rfl rfl (Nat.le_succ _)
  have h' := h.trans (leavesPool_modifyLifecycle type id fun _ =>
    { action, status := .pending, jobId := some s.nextId, step := some step })
  exact h'

theorem leavesPool_discardCurrentJob (id : UUID) : LeavesPool s (s.discardCurrentJob id) := by
  rcases s.discardCurrentJob_cases id with ⟨h, -⟩ | ⟨t, j, -, -, h⟩
  · rw [h]
    exact .refl s
  · rw [h]
    exact .of_eq rfl rfl rfl (Nat.le_refl _)

theorem leavesPool_requestInstanceUpdate (id : UUID) (i : Instance) :
    LeavesPool s (s.requestInstanceUpdate id i) := by
  unfold requestInstanceUpdate
  split
  · exact .refl s
  · exact leavesPool_stageJob _ _ _ _ _

theorem leavesPool_deleteResource {job : JobExecution}
    (type : ∀ type, job.resourceType = some type → type = .workspace) :
    LeavesPool s (s.deleteResource job) := by
  unfold deleteResource
  split
  · rename_i t id htype _
    obtain rfl := type t htype
    exact .of_eq rfl rfl rfl (Nat.le_refl _)
  · exact .refl s

theorem leavesPool_finalizeMembers (id : UUID) (memberIds : List UUID) :
    LeavesPool s (s.finalizeMembers id memberIds) := .of_eq rfl rfl rfl (Nat.le_refl _)

end LeavesPool

namespace Store
variable {s : Store}

/-- One comparison of the pick keeps the best database so far or takes the next. -/
def pick (s : Store) (best : Option (UUID × Database)) (d : UUID × Database) :
    Option (UUID × Database) :=
  match best with
  | none => some d
  | some b => if s.lessUtilized b d then some b else some d

theorem pick_cases (best : Option (UUID × Database)) (d : UUID × Database) :
    s.pick best d = some d ∨ best.isSome = true ∧ s.pick best d = best := by
  unfold pick
  cases best with
  | none => exact .inl rfl
  | some b =>
      by_cases hless : s.lessUtilized b d = true
      · exact .inr ⟨rfl, if_pos hless⟩
      · exact .inl (if_neg hless)

theorem foldl_pick_eq_some {r : UUID × Database} (l : List (UUID × Database))
    (best : Option (UUID × Database)) (h : l.foldl s.pick best = some r) : best = some r ∨ r ∈ l := by
  induction l generalizing best with
  | nil => exact .inl h
  | cons d l ih =>
      rcases ih _ h with hbest | hmem
      · rcases s.pick_cases best d with heq | ⟨-, heq⟩
        · rw [heq] at hbest
          exact .inr (by simp [Option.some.inj hbest])
        · exact .inl (heq ▸ hbest)
      · exact .inr (List.mem_cons_of_mem d hmem)

theorem foldl_pick_eq_none (l : List (UUID × Database)) (best : Option (UUID × Database))
    (h : l.foldl s.pick best = none) : best = none ∧ l = [] := by
  induction l generalizing best with
  | nil => exact ⟨h, rfl⟩
  | cons d l ih =>
      obtain ⟨hbest, -⟩ := ih _ h
      rcases s.pick_cases best d with heq | ⟨hsome, heq⟩
      · cases heq.symm.trans hbest
      · simp [heq.symm.trans hbest] at hsome

theorem leastUtilizedDatabase_eq_some {r : UUID × Database} (h : s.leastUtilizedDatabase = some r) :
    s.databases.lookup r.1 = some r.2 := by
  rcases foldl_pick_eq_some (s := s) _ _ h with h | h
  · cases h
  · exact (Table.mem_select.mp h).1

end Store

def Request.changesPool : Request → Bool
  | .createInstance _ _ => true
  | .createDatabase _ _ => true
  | .updateDatabase _ _ _ => true
  | .deleteDatabase _ => true
  | _ => false

/-- The last step of an instance deletion is the one transaction of the workers
that takes an instance and its allocation away. -/
def Transaction.changesPool : {β : Type} → Transaction β → Bool
  | _, .removeLocalConfiguration _ => true
  | _, _ => false

def changesPool : WhatHappened → Bool
  | .called _ ⟨.transaction tr, _⟩ => tr.changesPool
  | .changed (.request r) => r.changesPool
  | _ => false

open Store in
theorem Accepted.leavesPool {s s' : Store} {r : Request} (h : Accepted s r s')
    (other : r.changesPool = false) : LeavesPool s s' := by
  cases h with
  | createInstance | createDatabase | updateDatabase | deleteDatabase => cases other
  | requestInstanceDeletion | requestStart | requestStop | requestAssignmentDeletion
  | requestWorkspaceDeletion => exact leavesPool_stageJob _ _ _ _ _
  | requestSync | createKubernetesProvider | updateWorkspace =>
      apply LeavesPool.trans _ (leavesPool_stageJob _ _ _ _ _)
      exact .of_eq rfl rfl rfl (Nat.le_refl _)
  | createMember =>
      apply LeavesPool.trans _ (leavesPool_requestInstanceUpdate _ _)
      exact .of_eq rfl rfl rfl (Nat.le_succ _)
  | updateMemberRole | requestMemberDeletion =>
      apply LeavesPool.trans _ (leavesPool_requestInstanceUpdate _ _)
      exact .of_eq rfl rfl rfl (Nat.le_refl _)
  | keepMemberRole | keepTemplate | keepAssignment | keepAssignmentDeletion | keepWorkspace =>
      exact .refl s
  | updateTemplate | deleteTemplate =>
      exact (leavesPool_discardCurrentJob _).trans (.of_eq rfl rfl rfl (Nat.le_refl _))
  | requestTemplateSync =>
      exact (leavesPool_discardCurrentJob _).trans (leavesPool_stageJob _ _ _ _ _)
  | requestDatabaseSync | createTemplate | createImage | createUserParameter
  | createSystemParameter => exact .of_eq rfl rfl rfl (Nat.le_succ _)
  | deleteImage | updateParameter | updateSystemValue | deleteUserParameter
  | deleteSystemParameter => exact .of_eq rfl rfl rfl (Nat.le_refl _)
  | putAssignment | createWorkspace =>
      exact .of_eq rfl rfl rfl (Nat.le_add_right _ _)

open Store in
theorem Mutated.leavesPool {s s' : Store} {job : JobExecution} {m : Mutation}
    (h : Mutated s job m s') : LeavesPool s s' := by
  cases h with
  | none | keepWorkspace => exact .refl s
  | storeApplicationName | promotePassword | markStopped => exact leavesPool_instances _ _
  | markCreated => exact leavesPool_modifyLifecycle _ _ _
  | failMembers | deferMembers | convergeWorkspace => exact .of_eq rfl rfl rfl (Nat.le_refl _)

open Store in
theorem Committed.leavesPool {s s' : Store} {β : Type} {t : Transaction β} {a : β}
    {h : WorkerHistory} (hc : Committed s t a s') (hg : Discipline.transaction h t)
    (hl : Consistent catalogue s.ledger) (other : t.changesPool = false) : LeavesPool s s' := by
  cases hc with
  | claimRefused | heartbeatStale | advanceStale | completeStale | deferStale | failStale
  | retryRefused | retryNamed | bootstrapStale | bootstrapKept | finalizeStale | startedStale
  | removeStale | stateKept | deploymentApplied | deploymentMissing | removeAssignmentStale
  | remoteIdsStale => exact .refl s
  | claimExecution | retryReclaimed => exact leavesPool_put _ _ _ _
  | heartbeatExecution => exact leavesPool_modifyJob _ _
  | advanceExecution _ mutated => exact mutated.leavesPool.trans (leavesPool_put _ _ _ _)
  | completeExecution _ mutated => exact mutated.leavesPool.trans (leavesPool_put _ _ _ _)
  | @completeDeletion claim mutate job s₁ owned mutated =>
      have hstep : claim.step = .workspaceDeleteStep01 := by
        obtain ⟨-, hd⟩ := hg
        cases hd
        assumption
      have htype : ∀ type, job.resourceType = some type → type = .workspace := by
        intro type htype
        have := owned_resourceType hl owned htype
        rw [hstep] at this
        exact (Option.some.inj this).symm
      exact mutated.leavesPool.trans ((leavesPool_modifyJob _ _).trans
        (leavesPool_deleteResource htype))
  | deferExecution _ mutated => exact mutated.leavesPool.trans (leavesPool_put _ _ _ _)
  | failExecution _ mutated => exact mutated.leavesPool.trans (leavesPool_put _ _ _ _)
  | bootstrapDrawn | storeStartedApplication | recordInstanceState =>
      exact leavesPool_instances _ _
  | finalizeUpdate owned row final =>
      subst final
      exact ((leavesPool_instances _ _).trans (leavesPool_finalizeMembers _ _)).trans
        (leavesPool_put _ _ _ _)
  | finalizeAgain owned row final =>
      subst final
      exact (((leavesPool_instances _ _).trans (leavesPool_finalizeMembers _ _)).trans
        (leavesPool_put _ _ _ _)).trans (leavesPool_stageJob _ _ _ _ _)
  | removeLocalConfiguration => cases other
  | claimMembers | claimCleanup | prepareDeployment | storeTemplateRemoteIds | finishDeployment
  | removeLocalAssignment | storeWorkspaceRemoteIds => exact .of_eq rfl rfl rfl (Nat.le_refl _)

/-- Every other move of the manager leaves the pool alone. -/
theorem Moved.leavesPool {w w' : World} {t : Trace} {what : WhatHappened}
    (hm : Moved w t what w') (hs : Sound w.store) (other : changesPool what = false) :
    LeavesPool w.store w'.store := by
  rcases hm.store_cases with h | ⟨now, h⟩ | ⟨r, rfl, accepted⟩ |
    ⟨worker, β, tr, a, rfl, allowed, committed⟩
  · rw [h]
    exact .refl _
  · rw [h]
    exact .of_eq rfl rfl rfl (Nat.le_refl _)
  · exact accepted.leavesPool other
  · exact committed.leavesPool allowed hs.ledger other

end CoderManager
