import CoderManager.Refinement.Pool

/-!
# The rows of an instance

No request and few transactions take a row of an instance away. Every instance
has a schema on a database of the pool for as long as it is there.
-/
namespace CoderManager
open Tables Leases

/-- A row that belongs to an instance. -/
inductive InstanceRow where
  | «instance»
  | provider
  | allocation
  | member (id : UUID)
  | workspace (id : UUID)
  deriving DecidableEq, Repr

def Store.hasRow (s : Store) (instanceId : UUID) : InstanceRow → Bool
  | .instance => (s.instances.lookup instanceId).isSome
  | .provider => (s.kubernetesProviders.lookup instanceId).isSome
  | .allocation => (s.allocations.lookup instanceId).isSome
  | .member id => (s.members.lookup id).any fun m => m.instanceId == instanceId
  | .workspace id => (s.workspaces.lookup id).any fun w => w.instanceId == instanceId

theorem Store.hasRow_member {s : Store} {instanceId id : UUID} :
    s.hasRow instanceId (.member id) = true ↔
      ∃ m, s.members.lookup id = some m ∧ m.instanceId = instanceId := by
  simp only [hasRow, Option.any_eq_true, beq_iff_eq]

theorem Store.hasRow_workspace {s : Store} {instanceId id : UUID} :
    s.hasRow instanceId (.workspace id) = true ↔
      ∃ w, s.workspaces.lookup id = some w ∧ w.instanceId = instanceId := by
  simp only [hasRow, Option.any_eq_true, beq_iff_eq]

/-- No row of an instance is gone in `s'`. -/
structure RowsKept (s s' : Store) : Prop where
  instances : Table.Covered s.instances s'.instances
  providers : Table.Covered s.kubernetesProviders s'.kubernetesProviders
  allocations : Table.Covered s.allocations s'.allocations
  members : Table.Within (fun m => m.instanceId) s'.members s.members
  workspaces : Table.Within (fun w => w.instanceId) s'.workspaces s.workspaces

namespace RowsKept
variable {s s' s'' : Store}

theorem refl (s : Store) : RowsKept s s := ⟨.refl _, .refl _, .refl _, .refl _ _, .refl _ _⟩

theorem trans (h : RowsKept s s') (h' : RowsKept s' s'') : RowsKept s s'' :=
  ⟨h.instances.trans h'.instances, h.providers.trans h'.providers,
    h.allocations.trans h'.allocations, h'.members.trans h.members,
    h'.workspaces.trans h.workspaces⟩

theorem hasRow (h : RowsKept s s') {instanceId : UUID} {row : InstanceRow}
    (there : s.hasRow instanceId row = true) : s'.hasRow instanceId row = true := by
  cases row with
  | «instance» =>
      obtain ⟨i, hi⟩ := Option.isSome_iff_exists.mp there
      exact Option.isSome_iff_exists.mpr (h.instances _ i hi)
  | provider =>
      obtain ⟨p, hp⟩ := Option.isSome_iff_exists.mp there
      exact Option.isSome_iff_exists.mpr (h.providers _ p hp)
  | allocation =>
      obtain ⟨a, ha⟩ := Option.isSome_iff_exists.mp there
      exact Option.isSome_iff_exists.mpr (h.allocations _ a ha)
  | member id =>
      obtain ⟨m, hm, hown⟩ := Store.hasRow_member.mp there
      obtain ⟨m', hm', hsame⟩ := h.members id m hm
      exact Store.hasRow_member.mpr ⟨m', hm', hsame.symm.trans hown⟩
  | workspace id =>
      obtain ⟨w, hw, hown⟩ := Store.hasRow_workspace.mp there
      obtain ⟨w', hw', hsame⟩ := h.workspaces id w hw
      exact Store.hasRow_workspace.mpr ⟨w', hw', hsame.symm.trans hown⟩

theorem modifyLifecycle (type : ResourceType) (id : UUID) (f : Lifecycle → Lifecycle) :
    RowsKept s (s.modifyLifecycle type id f) := by
  have h := refl s
  cases type with
  | «instance» => exact { h with instances := .modify }
  | template => exact { h with members := .refl _ _ }
  | templateAssignment => exact { h with members := .refl _ _ }
  | workspace => exact { h with workspaces := .of_modify fun _ => rfl }

theorem modifyResource (job : JobExecution) (f : Lifecycle → Lifecycle) :
    RowsKept s (s.modifyResource job f) := by
  unfold Store.modifyResource
  split
  · exact modifyLifecycle _ _ _
  · exact refl s

theorem modifyJob (jobId : UUID) (g : JobExecution → JobExecution) :
    RowsKept s (s.modifyJob jobId g) := { refl s with members := .refl _ _ }

theorem put (jobId : UUID) (g : JobExecution → JobExecution) (job : JobExecution)
    (f : Lifecycle → Lifecycle) : RowsKept s ((s.modifyJob jobId g).modifyResource job f) :=
  (modifyJob jobId g).trans (modifyResource job f)

theorem stageJob (name : JobName) (action : Action) (type : ResourceType) (id : UUID)
    (step : StepName) : RowsKept s (s.stageJob name action type id step).2 := by
  have h : RowsKept s (s.addJobExecution name step.task (some type) (some id) step).2 :=
    { refl s with members := .refl _ _ }
  have h' := h.trans (modifyLifecycle type id fun _ =>
    { action, status := .pending, jobId := some s.nextId, step := some step })
  exact h'

theorem requestInstanceUpdate (id : UUID) (i : Instance) :
    RowsKept s (s.requestInstanceUpdate id i) := by
  unfold Store.requestInstanceUpdate
  split
  · exact refl s
  · exact stageJob _ _ _ _ _

theorem discardCurrentJob (id : UUID) : RowsKept s (s.discardCurrentJob id) := by
  rcases s.discardCurrentJob_cases id with ⟨h, -⟩ | ⟨t, jobId, -, -, h⟩ <;> rw [h]
  · exact refl s
  · exact { refl s with members := .refl _ _ }

theorem rewriteInstance (id : UUID) (g : Instance → Instance) :
    RowsKept s { s with instances := s.instances.modify id g } :=
  { refl s with instances := .modify }

theorem rewriteMembers {p : UUID → Member → Bool} {g : Member → Member}
    (same : ∀ m, (g m).instanceId = m.instanceId) :
    RowsKept s { s with members := s.members.updateWhere p g } :=
  { refl s with members := .of_updateWhere same }

theorem rewriteWorkspace {id : UUID} {g : Workspace → Workspace}
    (same : ∀ w, (g w).instanceId = w.instanceId) :
    RowsKept s { s with workspaces := s.workspaces.modify id g } :=
  { refl s with workspaces := .of_modify same }

end RowsKept

open Store in
/-- No request takes a row of an instance away. -/
theorem Accepted.rowsKept {s s' : Store} {r : Request} (h : Accepted s r s') (hs : Grounded s) :
    RowsKept s s' := by
  have fresh : ∀ {α : Type} {f : α → UUID} {t : Table UUID α} {v : α},
      (∀ id a, t.lookup id = some a → id < s.nextId) →
      Table.Within f (t.insert s.nextId v) t := by
    intro α f t v hdrawn
    exact .of_insert fun a ha => absurd (hdrawn _ a ha) (Nat.lt_irrefl _)
  cases h with
  | createInstance =>
      exact { RowsKept.refl s with instances := .insert, allocations := .insert }
  | requestInstanceDeletion | requestStart | requestStop | requestAssignmentDeletion
  | requestWorkspaceDeletion => exact .stageJob _ _ _ _ _
  | requestSync _ retried =>
      subst retried
      refine RowsKept.trans ?_ (.stageJob _ _ _ _ _)
      exact .rewriteMembers fun _ => rfl
  | createKubernetesProvider _ _ _ stored =>
      subst stored
      refine RowsKept.trans ?_ (.stageJob _ _ _ _ _)
      exact { RowsKept.refl s with providers := .insert }
  | updateWorkspace _ _ _ _ changed same =>
      subst changed
      refine RowsKept.trans ?_ (.stageJob _ _ _ _ _)
      exact .rewriteWorkspace fun w => (same w).2.1
  | createMember _ _ added =>
      subst added
      refine RowsKept.trans ?_ (.requestInstanceUpdate _ _)
      exact { RowsKept.refl s with members := fresh fun id m hm => (hs.members id m hm).1 }
  | updateMemberRole _ _ _ _ changed | requestMemberDeletion _ _ _ _ _ changed =>
      subst changed
      refine RowsKept.trans ?_ (.requestInstanceUpdate _ _)
      exact { RowsKept.refl s with members := .of_modify fun _ => rfl }
  | keepMemberRole | keepTemplate | keepAssignment | keepAssignmentDeletion | keepWorkspace =>
      exact .refl s
  | updateTemplate | deleteTemplate => 
      exact (RowsKept.discardCurrentJob _).trans { RowsKept.refl _ with members := .refl _ _ }
  | requestTemplateSync =>
      exact (RowsKept.discardCurrentJob _).trans (.stageJob _ _ _ _ _)
  | createDatabase | updateDatabase | deleteDatabase | requestDatabaseSync | createTemplate
  | createImage | createUserParameter
  | createSystemParameter | deleteImage | updateParameter | updateSystemValue | deleteUserParameter
  | deleteSystemParameter | putAssignment => exact { RowsKept.refl s with members := .refl _ _ }
  | createWorkspace =>
      exact { RowsKept.refl s with workspaces := fresh fun id w hw => (hs.workspaces id w hw).1 }

theorem Mutated.rowsKept {s s' : Store} {job : JobExecution} {m : Mutation}
    (h : Mutated s job m s') : RowsKept s s' := by
  cases h with
  | none | keepWorkspace => exact .refl s
  | storeApplicationName | promotePassword | markStopped => exact .rewriteInstance _ _
  | markCreated => exact .modifyLifecycle _ _ _
  | failMembers | deferMembers => exact .rewriteMembers fun _ => rfl
  | convergeWorkspace _ _ same => exact .rewriteWorkspace fun w => (same w).2.1

/-- The transactions that may take rows of an instance away. -/
def Transaction.removesRows : {β : Type} → Transaction β → Bool
  | _, .completeExecution _ _ delete => delete
  | _, .finalizeUpdate _ _ _ => true
  | _, .removeLocalConfiguration _ => true
  | _, .removeLocalAssignment _ _ => true
  | _, _ => false

theorem Committed.rowsKept {s s' : Store} {β : Type} {t : Transaction β} {a : β}
    (hc : Committed s t a s') (other : t.removesRows = false) : RowsKept s s' := by
  cases hc with
  | claimRefused | heartbeatStale | advanceStale | completeStale | deferStale | failStale
  | retryRefused | retryNamed | bootstrapStale | bootstrapKept | finalizeStale | startedStale
  | removeStale | stateKept | deploymentApplied | deploymentMissing | removeAssignmentStale
  | remoteIdsStale => exact .refl s
  | claimExecution | retryReclaimed => exact .put _ _ _ _
  | heartbeatExecution => exact .modifyJob _ _
  | advanceExecution _ mutated | completeExecution _ mutated | deferExecution _ mutated
  | failExecution _ mutated => exact mutated.rowsKept.trans (.put _ _ _ _)
  | completeDeletion | finalizeUpdate | finalizeAgain | removeLocalConfiguration
  | removeLocalAssignment => cases other
  | bootstrapDrawn | storeStartedApplication | recordInstanceState => exact .rewriteInstance _ _
  | claimMembers | claimCleanup => exact .rewriteMembers fun _ => rfl
  | prepareDeployment | storeTemplateRemoteIds | finishDeployment =>
      exact { RowsKept.refl s with members := .refl _ _ }
  | storeWorkspaceRemoteIds => exact .rewriteWorkspace fun _ => rfl

namespace Store
variable {s : Store} {id instanceId : UUID} {row : InstanceRow}

/-- The last step of a deletion takes every row of its instance, and no other. -/
theorem hasRow_removeInstance :
    (s.removeInstance id).hasRow instanceId row = (s.hasRow instanceId row && instanceId != id) := by
  rw [Bool.eq_iff_iff, Bool.and_eq_true, bne_iff_ne]
  cases row with
  | «instance» | provider | allocation =>
      simp only [hasRow, Option.isSome_iff_exists, removeInstance, Table.lookup_erase_some]
      exact exists_and_left.trans and_comm
  | member mid =>
      simp only [hasRow_member, removeInstance, Table.lookup_deleteWhere_some, beq_eq_false_iff_ne]
      constructor
      · rintro ⟨m, ⟨hm, hne⟩, rfl⟩
        exact ⟨⟨m, hm, rfl⟩, hne⟩
      · rintro ⟨⟨m, hm, rfl⟩, hne⟩
        exact ⟨m, ⟨hm, hne⟩, rfl⟩
  | workspace wid =>
      simp only [hasRow_workspace, removeInstance, Table.lookup_deleteWhere_some, beq_eq_false_iff_ne]
      constructor
      · rintro ⟨w, ⟨hw, hne⟩, rfl⟩
        exact ⟨⟨w, hw, rfl⟩, hne⟩
      · rintro ⟨⟨w, hw, rfl⟩, hne⟩
        exact ⟨w, ⟨hw, hne⟩, rfl⟩

theorem hasRow_finalizeMembers {memberIds : List UUID} (there : s.hasRow instanceId row = true)
    (gone : (s.finalizeMembers id memberIds).hasRow instanceId row = false) :
    ∃ memberId m, memberId ∈ memberIds ∧ s.members.lookup memberId = some m ∧
      m.action = .deleting ∧ (row = .member memberId ∨
        ∃ wid w, row = .workspace wid ∧ s.workspaces.lookup wid = some w ∧ w.memberId = memberId) := by
  cases row with
  | «instance» | provider | allocation => cases there.symm.trans gone
  | member mid =>
      obtain ⟨m, hm, hown⟩ := hasRow_member.mp there
      by_contra hnone
      have hstays : (memberIds.contains mid && m.instanceId == id && m.status == .running &&
          m.action == .deleting) = false := by
        by_contra hdone
        simp only [Bool.not_eq_false, Bool.and_eq_true, List.contains_iff_mem, beq_iff_eq] at hdone
        exact hnone ⟨mid, m, hdone.1.1.1, hm, hdone.2, .inl rfl⟩
      have hkept : (s.finalizeMembers id memberIds).hasRow instanceId (.member mid) = true := by
        refine hasRow_member.mpr ⟨_, Table.lookup_updateWhere_some.mpr
          ⟨m, Table.lookup_deleteWhere_some.mpr ⟨hm, hstays⟩, rfl⟩, ?_⟩
        split <;> exact hown
      cases hkept.symm.trans gone
  | workspace wid =>
      obtain ⟨w, hw, hown⟩ := hasRow_workspace.mp there
      by_contra hnone
      have hstays : ((s.members.lookup w.memberId).any fun m => memberIds.contains w.memberId &&
          m.instanceId == id && m.status == .running && m.action == .deleting) = false := by
        by_contra hdone
        rw [Bool.not_eq_false, Option.any_eq_true] at hdone
        obtain ⟨m, hm, hdone⟩ := hdone
        simp only [Bool.and_eq_true, List.contains_iff_mem, beq_iff_eq] at hdone
        exact hnone ⟨w.memberId, m, hdone.1.1.1, hm, hdone.2, .inr ⟨wid, w, rfl, hw, rfl⟩⟩
      have hkept : (s.finalizeMembers id memberIds).hasRow instanceId (.workspace wid) = true :=
        hasRow_workspace.mpr ⟨w, Table.lookup_deleteWhere_some.mpr ⟨hw, hstays⟩, hown⟩
      cases hkept.symm.trans gone

end Store

def Store.Hosted (s : Store) : Prop :=
  ∀ id i, s.instances.lookup id = some i → ∃ a d, s.allocations.lookup id = some a ∧
    s.databases.lookup a.databaseId = some d

theorem LeavesPool.hosted {s s' : Store} (h : LeavesPool s s') (hs : s.Hosted) : s'.Hosted := by
  intro id i' hi
  have hsome := h.instances id
  rw [hi, Option.isSome_some, eq_comm, Option.isSome_iff_exists] at hsome
  obtain ⟨i, hi⟩ := hsome
  rw [h.allocations, h.databases]
  exact hs id i hi

open Store in
theorem Accepted.hosted {s s' : Store} {r : Request} (h : Accepted s r s') (hs : s.Hosted) :
    s'.Hosted := by
  by_cases other : r.changesPool = false
  · exact (h.leavesPool other).hosted hs
  · cases h with
    | @createInstance application slug databaseId d database =>
        intro id i hi
        rcases Table.lookup_insert_cases hi with ⟨rfl, rfl⟩ | ⟨hne, hi⟩
        · exact ⟨_, d, Table.lookup_insert_self _ _ _, leastUtilizedDatabase_eq_some database⟩
        · obtain ⟨a, d', ha, hd⟩ := hs id i hi
          exact ⟨a, d', (Table.lookup_insert_ne _ _ hne).trans ha, hd⟩
    | createDatabase | updateDatabase =>
        intro id i hi
        obtain ⟨a, d, ha, hd⟩ := hs id i hi
        obtain ⟨d', hd'⟩ := Table.Covered.insert _ d hd
        exact ⟨a, d', ha, hd'⟩
    | deleteDatabase unused =>
        intro id i hi
        obtain ⟨a, d, ha, hd⟩ := hs id i hi
        exact ⟨a, d, ha, Table.lookup_erase_some.mpr ⟨unused id a ha, hd⟩⟩
    | _ => exact absurd rfl other

open Store in
theorem Committed.hosted {s s' : Store} {β : Type} {t : Transaction β} {a : β} {h : WorkerHistory}
    (hc : Committed s t a s') (hg : Discipline.transaction h t)
    (hl : Consistent catalogue s.ledger) (hs : s.Hosted) : s'.Hosted := by
  by_cases other : t.changesPool = false
  · exact (hc.leavesPool hg hl other).hosted hs
  · cases hc with
    | removeStale => exact hs
    | removeLocalConfiguration =>
        intro id i hi
        obtain ⟨hne, hi⟩ := Table.lookup_erase_some.mp hi
        obtain ⟨a, d, ha, hd⟩ := hs id i hi
        exact ⟨a, d, Table.lookup_erase_some.mpr ⟨hne, ha⟩, hd⟩
    | _ => exact absurd rfl other

theorem Run.hosted {w : World} {t : Trace} (h : Run w t) : w.store.Hosted := by
  refine h.induction (motive := fun w _ => w.store.Hosted) ?start ?move
  case start =>
    intro id i hi
    cases hi
  case move =>
    intro w t what w' hrun hm ih
    rcases hm.store_cases with heq | ⟨now, heq⟩ | ⟨r, -, accepted⟩ |
      ⟨worker, β, tr, a, -, allowed, committed⟩
    · exact heq ▸ ih
    · rw [heq]
      exact ih
    · exact accepted.hosted ih
    · exact committed.hosted allowed hrun.sound.ledger ih

end CoderManager
