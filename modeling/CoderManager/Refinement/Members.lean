import CoderManager.Refinement.Deletions
import CoderManager.Refinement.Instances

/-!
# Member rows under requests and transactions

A change of a member waits until an update claims it. Until then the members that do
not wait stay as they were, whatever requests and other attempts do.
-/
namespace CoderManager
open Programs Tables Leases

/-- The columns of a member that name it and say what is asked for it. -/
def Member.terms (m : Member) : UUID × String × MemberRole × Action :=
  (m.instanceId, m.username, m.role, m.action)

def Member.Working (m : Member) : Prop := m.status = .running ∨ m.status = .error

def Transaction.claimant : {β : Type} → Transaction β → Option ExecutionClaim
  | _, .claimMembers c => some c
  | _, _ => none

/-- What a worker's transaction makes of the status of a member. -/
inductive Turned (s s' : Store) (h : WorkerHistory) (memberId : UUID) (m : Member) {β : Type}
    (t : Transaction β) : Status → Prop
  | same : Turned s s' h memberId m t m.status
  | claimed {c : ExecutionClaim} (claims : t.claimant = some c)
      (resource : c.resourceId = some m.instanceId) : Turned s s' h memberId m t .running
  | resumed (working : m.Working) : Turned s s' h memberId m t .running
  | released {c : ExecutionClaim} {memberIds : List UUID} {status : Status} (held : Holds h c)
      (own : ClaimsMembers h c memberIds) (owned : (s.ownedExecution c).isSome = true)
      (ended : s'.ownedExecution c = none) (member : memberId ∈ memberIds)
      (running : m.status = .running) (waits : status = .pending ∨ status = .error) :
      Turned s s' h memberId m t status
  | finished (running : m.status = .running) (alive : m.action ≠ .deleting) :
      Turned s s' h memberId m t .success

namespace Store
variable {s s' s₁ : Store} {id memberId : UUID} {memberIds : List UUID} {m : Member}
  {c : ExecutionClaim} {job : JobExecution}

theorem lookup_finalizeMembers (row : s.members.lookup memberId = some m) :
    (s.finalizeMembers id memberIds).members.lookup memberId =
      if memberId ∈ memberIds ∧ m.instanceId = id ∧ m.status = .running then
        if m.action = .deleting then none else some { m with status := .success }
      else some m := by
  by_cases hdone : memberId ∈ memberIds ∧ m.instanceId = id ∧ m.status = .running
  · obtain ⟨hmem, hown, hrunning⟩ := hdone
    by_cases hdel : m.action = .deleting <;>
      simp [finalizeMembers, Table.lookup_updateWhere, Table.lookup_deleteWhere, row, hmem, hown,
        hrunning, hdel, Option.filter]
  · have hno : (memberIds.contains memberId && m.instanceId == id && m.status == .running) = false := by
      rw [← Bool.not_eq_true]
      simpa [and_assoc] using hdone
    rw [if_neg hdone]
    refine Table.lookup_updateWhere_some.mpr ⟨m, Table.lookup_deleteWhere_some.mpr ⟨row, ?_⟩, ?_⟩
    · simp only [hno, Bool.false_and]
    · simp only [hno, Bool.false_eq_true, if_false]

@[simp] theorem members_requestInstanceUpdate (id : UUID) (i : Instance) :
    (s.requestInstanceUpdate id i).members = s.members := by
  unfold requestInstanceUpdate
  split
  · rfl
  · exact members_stageJob s _ _ _ _ _

theorem ownedExecution_releaseExecution {status : Status} (idle : status ≠ .running) :
    (s.releaseExecution c job status).ownedExecution c = none := by
  refine Option.eq_none_iff_forall_not_mem.mpr fun job' howned => ?_
  obtain ⟨hrow', -, -, -, hrunning, -⟩ := ownedExecution_eq_some.mp howned
  rw [releaseExecution, jobs_modifyResource] at hrow'
  obtain ⟨row, -, rfl⟩ := Option.map_eq_some_iff.mp ((Table.lookup_modify_self _ _ _).symm.trans hrow')
  exact idle hrunning

end Store

theorem Mutated.members_cases {s s₁ : Store} {job : JobExecution} {m : Mutation}
    (h : Mutated s job m s₁) : s₁.members = s.members ∨
      (∃ memberIds, m = .failMembers memberIds ∧ s₁ = s.releaseMembers memberIds .error) ∨
      ∃ memberIds, m = .deferMembers memberIds ∧ s₁ = s.releaseMembers memberIds .pending := by
  cases h with
  | none | storeApplicationName | promotePassword | markStopped | convergeWorkspace
  | keepWorkspace => exact .inl rfl
  | markCreated => exact .inl (Store.members_modifyLifecycle _ _ _ _)
  | failMembers => exact .inr (.inl ⟨_, rfl, rfl⟩)
  | deferMembers => exact .inr (.inr ⟨_, rfl, rfl⟩)

section Rows
variable {s s' : Store} {memberId : UUID} {m m' : Member}

open Store in
/-- What a worker's transaction does to one member. -/
theorem Committed.member_row {β : Type} {t : Transaction β} {a : β} {h : WorkerHistory}
    (hc : Committed s t a s') (hg : Discipline.transaction h t)
    (row : s.members.lookup memberId = some m) :
    (∃ status, s'.members.lookup memberId = some { m with status } ∧
      Turned s s' h memberId m t status) ∨
    (s'.members.lookup memberId = none ∧ ((m.status = .running ∧ m.action = .deleting) ∨
      s'.instances.lookup m.instanceId = none)) := by
  have same : s'.members = s.members → (∃ status, s'.members.lookup memberId = some { m with status } ∧
      Turned s s' h memberId m t status) ∨ (s'.members.lookup memberId = none ∧
      ((m.status = .running ∧ m.action = .deleting) ∨ s'.instances.lookup m.instanceId = none)) :=
    fun heq => .inl ⟨m.status, heq ▸ row, .same⟩
  have rewritten : ∀ {p : UUID → Member → Bool} {status : Status},
      s'.members = s.members.updateWhere p (fun m => { m with status }) →
      (p memberId m = true → Turned s s' h memberId m t status) →
      ∃ status, s'.members.lookup memberId = some { m with status } ∧
        Turned s s' h memberId m t status := by
    intro p status heq hturned
    rw [heq, Table.lookup_updateWhere, row]
    by_cases hp : p memberId m = true
    · exact ⟨status, by simp [hp], hturned hp⟩
    · exact ⟨m.status, by simp [hp], .same⟩
  have finished : ∀ {id : UUID} {memberIds : List UUID} {s₁ : Store},
      s'.members = (s₁.finalizeMembers id memberIds).members → s₁.members = s.members →
      (∃ status, s'.members.lookup memberId = some { m with status } ∧
        Turned s s' h memberId m t status) ∨ (s'.members.lookup memberId = none ∧
        ((m.status = .running ∧ m.action = .deleting) ∨ s'.instances.lookup m.instanceId = none)) := by
    intro id memberIds s₁ heq hrow
    rw [heq, lookup_finalizeMembers (hrow ▸ row)]
    split
    · rename_i hdone
      split
      · rename_i hdel
        exact .inr ⟨rfl, .inl ⟨hdone.2.2, hdel⟩⟩
      · rename_i halive
        exact .inl ⟨_, rfl, .finished hdone.2.2 halive⟩
    · exact .inl ⟨m.status, rfl, .same⟩
  cases hc with
  | claimRefused | heartbeatStale | advanceStale | completeStale | deferStale | failStale
  | retryRefused | retryNamed | bootstrapStale | bootstrapKept | finalizeStale | startedStale
  | removeStale | stateKept | deploymentApplied | deploymentMissing | removeAssignmentStale
  | remoteIdsStale | heartbeatExecution | bootstrapDrawn | storeStartedApplication
  | recordInstanceState | prepareDeployment | storeTemplateRemoteIds | finishDeployment
  | removeLocalAssignment | storeWorkspaceRemoteIds => exact same rfl
  | claimExecution | retryReclaimed => exact same (members_modifyResource _ _ _)
  | advanceExecution _ mutated =>
      rcases mutated.members_cases with heq | ⟨_, rfl, -⟩ | ⟨_, rfl, -⟩
      · exact same ((members_modifyResource _ _ _).trans heq)
      · cases hg.2.2
      · cases hg.2.2
  | completeExecution _ mutated =>
      rcases mutated.members_cases with heq | ⟨_, rfl, -⟩ | ⟨_, rfl, -⟩
      · exact same ((members_modifyResource _ _ _).trans heq)
      · cases hg.2
      · cases hg.2
  | completeDeletion _ mutated =>
      rcases mutated.members_cases with heq | ⟨_, rfl, -⟩ | ⟨_, rfl, -⟩
      · exact same ((members_deleteResource _ _).trans heq)
      · cases hg.2
      · cases hg.2
  | deferExecution owned mutated | failExecution owned mutated =>
      rcases mutated.members_cases with heq | ⟨memberIds, rfl, rfl⟩ | ⟨memberIds, rfl, rfl⟩
      · exact same ((members_modifyResource _ _ _).trans heq)
      · refine .inl (rewritten (members_modifyResource _ _ _) fun hp => ?_)
        obtain ⟨held, hrel⟩ := hg
        simp only [Bool.and_eq_true, List.contains_iff_mem, beq_iff_eq] at hp
        cases hrel with
        | failMembers own =>
            exact .released held own (by simp [owned]) (ownedExecution_releaseExecution (by decide))
              hp.1 hp.2 (.inr rfl)
      · refine .inl (rewritten (members_modifyResource _ _ _) fun hp => ?_)
        obtain ⟨held, hrel⟩ := hg
        simp only [Bool.and_eq_true, List.contains_iff_mem, beq_iff_eq] at hp
        cases hrel with
        | deferMembers own =>
            exact .released held own (by simp [owned]) (ownedExecution_releaseExecution (by decide))
              hp.1 hp.2 (.inl rfl)
  | claimMembers resource =>
      refine .inl (rewritten rfl fun hp => ?_)
      simp only [Bool.and_eq_true, beq_iff_eq] at hp
      exact .claimed rfl (hp.1 ▸ resource)
  | claimCleanup =>
      refine .inl (rewritten rfl fun hp => ?_)
      simp only [Bool.and_eq_true, Bool.or_eq_true, beq_iff_eq] at hp
      exact .resumed hp.2
  | finalizeUpdate _ _ final =>
      subst final
      exact finished (members_modifyResource _ _ _) rfl
  | finalizeAgain _ _ final =>
      subst final
      exact finished ((members_stageJob _ _ _ _ _ _).trans (members_modifyResource _ _ _)) rfl
  | @removeLocalConfiguration c job id =>
      by_cases hown : m.instanceId = id
      · refine .inr ⟨?_, .inr ?_⟩
        · simp [removeInstance, modifyJob, Table.lookup_deleteWhere, row, hown, Option.filter]
        · simp [removeInstance, Table.lookup_erase, hown]
      · refine .inl ⟨m.status, ?_, .same⟩
        exact Table.lookup_deleteWhere_some.mpr ⟨row, by simpa using hown⟩

theorem Committed.member_origin {β : Type} {t : Transaction β} {a : β} {h : WorkerHistory}
    (hc : Committed s t a s') (hg : Discipline.transaction h t)
    (row' : s'.members.lookup memberId = some m') :
    ∃ m, s.members.lookup memberId = some m ∧ m' = { m with status := m'.status } ∧
      Turned s s' h memberId m t m'.status := by
  obtain ⟨m, row, -⟩ := (Narrowed.committed hc).members memberId m' row'
  rcases hc.member_row hg row with ⟨status, hrow, hturned⟩ | ⟨hnone, -⟩
  · obtain rfl := Option.some.inj (row'.symm.trans hrow)
    exact ⟨m, row, rfl, hturned⟩
  · cases hnone.symm.trans row'

/-- A request makes a member wait for the next update, or leaves it alone. -/
theorem Accepted.member_cases {r : Request} (h : Accepted s r s')
    (row' : s'.members.lookup memberId = some m') :
    (memberId = s.nextId ∧ m'.status = .pending) ∨
      ∃ m, s.members.lookup memberId = some m ∧ m'.instanceId = m.instanceId ∧
        m'.username = m.username ∧ (m' = m ∨ m'.status = .pending) := by
  have same : s'.members = s.members → ∃ m, s.members.lookup memberId = some m ∧
      m'.instanceId = m.instanceId ∧ m'.username = m.username ∧ (m' = m ∨ m'.status = .pending) :=
    fun heq => ⟨m', heq ▸ row', rfl, rfl, .inl rfl⟩
  have waits : ∀ {mid : UUID} {f : Member → Member}, s'.members = s.members.modify mid f →
      (∀ m, (f m).instanceId = m.instanceId ∧ (f m).username = m.username ∧
        (f m).status = .pending) → ∃ m, s.members.lookup memberId = some m ∧
      m'.instanceId = m.instanceId ∧ m'.username = m.username ∧ (m' = m ∨ m'.status = .pending) := by
    intro mid f heq hf
    rcases Table.lookup_modify_cases (heq ▸ row') with ⟨rfl, m, hm, rfl⟩ | ⟨-, hm⟩
    · exact ⟨m, hm, (hf m).1, (hf m).2.1, .inr (hf m).2.2⟩
    · exact ⟨m', hm, rfl, rfl, .inl rfl⟩
  cases h with
  | createInstance | requestInstanceDeletion | requestStart | requestStop | createKubernetesProvider
  | createDatabase | updateDatabase | deleteDatabase | requestDatabaseSync | keepMemberRole
  | createTemplate | keepTemplate | createImage | deleteImage | createUserParameter
  | createSystemParameter | updateParameter | updateSystemValue | deleteUserParameter
  | deleteSystemParameter | putAssignment | keepAssignment | requestAssignmentDeletion
  | keepAssignmentDeletion | createWorkspace | updateWorkspace | keepWorkspace
  | requestWorkspaceDeletion => exact .inr (same rfl)
  | updateTemplate | deleteTemplate | requestTemplateSync => exact .inr (same (by simp))
  | requestSync idle retried =>
      obtain ⟨m, hm, rfl⟩ := Table.lookup_updateWhere_some.mp (retried ▸ row')
      refine .inr ⟨m, hm, ?_⟩
      split
      · exact ⟨rfl, rfl, .inr rfl⟩
      · exact ⟨rfl, rfl, .inl rfl⟩
  | createMember available free added =>
      rw [Store.members_requestInstanceUpdate, added] at row'
      rcases Table.lookup_insert_cases row' with ⟨hid, rfl⟩ | ⟨-, hm⟩
      · exact .inl ⟨hid, rfl⟩
      · exact .inr ⟨m', hm, rfl, rfl, .inl rfl⟩
  | updateMemberRole available row own settled changed =>
      subst changed
      exact .inr (waits (Store.members_requestInstanceUpdate _ _) fun _ => ⟨rfl, rfl, rfl⟩)
  | requestMemberDeletion available row own settled unused changed =>
      subst changed
      exact .inr (waits (Store.members_requestInstanceUpdate _ _) fun _ => ⟨rfl, rfl, rfl⟩)

theorem Accepted.member_kept {r : Request} (h : Accepted s r s') (hs : s.Grounded)
    (row : s.members.lookup memberId = some m) :
    ∃ m', s'.members.lookup memberId = some m' ∧ m'.instanceId = m.instanceId ∧
      m'.username = m.username ∧ (m' = m ∨ m'.status = .pending) := by
  obtain ⟨m', row', -⟩ := (h.rowsKept hs).members memberId m row
  rcases h.member_cases row' with ⟨hid, -⟩ | ⟨m₀, row₀, hkept⟩
  · exact absurd (hid ▸ (hs.members memberId m row).1) (Nat.lt_irrefl _)
  · obtain rfl := Option.some.inj (row.symm.trans row₀)
    exact ⟨m', row', hkept⟩

end Rows

namespace Store

/-- The members that do not wait for an update agree with a list: it has those that stay and
not those that go, and nobody else who is no member. -/
structure Aligned (s : Store) (id : UUID) (listed : List (String × MemberRole)) : Prop where
  present : ∀ mid m, s.members.lookup mid = some m → m.instanceId = id → m.status ≠ .pending →
    m.action ≠ .deleting → (m.username, m.role) ∈ listed
  absent : ∀ mid m, s.members.lookup mid = some m → m.instanceId = id → m.status ≠ .pending →
    m.action = .deleting → ∀ role, (m.username, role) ∉ listed
  known : ∀ username role, (username, role) ∈ listed → ∃ mid m, s.members.lookup mid = some m ∧
    m.instanceId = id ∧ m.username = username ∧
    (m.status = .pending ∨ (m.role = role ∧ m.action ≠ .deleting))

section Alignment
variable {s s' : Store} {id : UUID} {listed : List (String × MemberRole)}

theorem mem_activeMembers {username : String} {role : MemberRole} :
    (username, role) ∈ s.activeMembers id ↔ ∃ mid m, s.members.lookup mid = some m ∧
      m.instanceId = id ∧ m.username = username ∧ m.role = role ∧ m.action ≠ .deleting := by
  simp only [activeMembers, storedMembers, List.mem_map, List.mem_filter, List.mem_insertionSort,
    Table.mem_select, Prod.exists, Prod.mk.injEq, beq_iff_eq, bne_iff_ne]
  constructor
  · rintro ⟨mid, m, ⟨⟨hm, hown⟩, halive⟩, huser, hrole⟩
    exact ⟨mid, m, hm, hown, huser, hrole, halive⟩
  · rintro ⟨mid, m, hm, hown, huser, hrole, halive⟩
    exact ⟨mid, m, ⟨⟨hm, hown⟩, halive⟩, huser, hrole⟩

theorem Grounded.aligned (hs : s.Grounded)
    (same : ∀ mid, (s'.members.lookup mid).map Member.terms = (s.members.lookup mid).map Member.terms) :
    s'.Aligned id (s.activeMembers id) := by
  have back : ∀ {mid : UUID} {m' : Member}, s'.members.lookup mid = some m' →
      ∃ m, s.members.lookup mid = some m ∧ m.terms = m'.terms := by
    intro mid m' hm'
    have h := same mid
    rw [hm', Option.map_some, eq_comm, Option.map_eq_some_iff] at h
    exact h
  constructor
  · intro mid m' hm' hown _ halive
    obtain ⟨m, hm, hterms⟩ := back hm'
    simp only [Member.terms, Prod.mk.injEq] at hterms
    obtain ⟨hinst, huser, hrole, haction⟩ := hterms
    exact mem_activeMembers.mpr ⟨mid, m, hm, hinst.trans hown, huser, hrole, haction ▸ halive⟩
  · intro mid m' hm' hown _ hdel role hlisted
    obtain ⟨m, hm, hterms⟩ := back hm'
    simp only [Member.terms, Prod.mk.injEq] at hterms
    obtain ⟨hinst, huser, -, haction⟩ := hterms
    obtain ⟨mid₁, m₁, hm₁, hown₁, huser₁, -, halive⟩ := mem_activeMembers.mp hlisted
    -- The username is taken once in an instance.
    obtain rfl := hs.usernames mid₁ mid m₁ m hm₁ hm (hown₁.trans (hinst.trans hown).symm)
      (huser₁.trans huser.symm)
    obtain rfl := Option.some.inj (hm₁.symm.trans hm)
    exact halive (haction.trans hdel)
  · intro username role hlisted
    obtain ⟨mid, m, hm, hown, huser, hrole, halive⟩ := mem_activeMembers.mp hlisted
    have h := same mid
    rw [hm, Option.map_some, Option.map_eq_some_iff] at h
    obtain ⟨m', hm', hterms⟩ := h
    simp only [Member.terms, Prod.mk.injEq] at hterms
    obtain ⟨hinst, huser', hrole', haction⟩ := hterms
    exact ⟨mid, m', hm', hinst.trans hown, huser'.trans huser,
      .inr ⟨hrole'.trans hrole, haction ▸ halive⟩⟩

end Alignment
end Store

section Alignment
variable {s s' : Store} {id : UUID} {listed : List (String × MemberRole)}

theorem Accepted.aligned {r : Request} (h : Accepted s r s') (hs : s.Grounded)
    (ha : s.Aligned id listed) : s'.Aligned id listed := by
  -- A member that does not wait is as it was.
  have settled : ∀ {mid : UUID} {m' : Member}, s'.members.lookup mid = some m' →
      m'.status ≠ .pending → s.members.lookup mid = some m' := by
    intro mid m' hm' hstatus
    rcases h.member_cases hm' with ⟨-, hpending⟩ | ⟨m, hm, -, -, rfl | hpending⟩
    · exact absurd hpending hstatus
    · exact hm
    · exact absurd hpending hstatus
  refine ⟨fun mid m' hm' hown hstatus => ?_, fun mid m' hm' hown hstatus => ?_, ?_⟩
  · exact ha.present mid m' (settled hm' hstatus) hown hstatus
  · exact ha.absent mid m' (settled hm' hstatus) hown hstatus
  · intro username role hlisted
    obtain ⟨mid, m, hm, hown, huser, hterms⟩ := ha.known username role hlisted
    obtain ⟨m', hm', hinst, huser', hkept⟩ := h.member_kept hs hm
    refine ⟨mid, m', hm', hinst.trans hown, huser'.trans huser, ?_⟩
    rcases hkept with rfl | hpending
    · exact hterms
    · exact .inl hpending

/-- Workers leave a member waiting, and never let one wait no longer but by claiming it. -/
theorem Committed.aligned {β : Type} {t : Transaction β} {a : β} {h : WorkerHistory}
    (hc : Committed s t a s') (hg : Discipline.transaction h t)
    (there : (s'.instances.lookup id).isSome = true)
    (unclaimed : ∀ c, t.claimant = some c → c.resourceId ≠ some id) (ha : s.Aligned id listed) :
    s'.Aligned id listed := by
  have settled : ∀ {mid : UUID} {m : Member} {status : Status}, m.instanceId = id →
      Turned s s' h mid m t status → status ≠ .pending → m.status ≠ .pending := by
    intro mid m status hown hturned hstatus hpending
    cases hturned with
    | same => exact hstatus hpending
    | claimed claims resource => exact unclaimed _ claims (hown ▸ resource)
    | resumed working => rcases working with h | h <;> cases hpending.symm.trans h
    | released _ _ _ _ _ running => cases hpending.symm.trans running
    | finished running => cases hpending.symm.trans running
  refine ⟨fun mid m' hm' hown hstatus halive => ?_, fun mid m' hm' hown hstatus hdel => ?_, ?_⟩
  · obtain ⟨m, hm, heq, hturned⟩ := hc.member_origin hg hm'
    rw [heq] at hown halive ⊢
    exact ha.present mid m hm hown (settled hown hturned hstatus) halive
  · obtain ⟨m, hm, heq, hturned⟩ := hc.member_origin hg hm'
    rw [heq] at hown hdel ⊢
    exact ha.absent mid m hm hown (settled hown hturned hstatus) hdel
  · intro username role hlisted
    obtain ⟨mid, m, hm, hown, huser, hterms⟩ := ha.known username role hlisted
    rcases hc.member_row hg hm with ⟨status, hm', hturned⟩ | ⟨-, ⟨hrunning, hdel⟩ | hgone⟩
    · refine ⟨mid, _, hm', hown, huser, ?_⟩
      rcases hterms with hpending | hterms
      · by_cases hstatus : status = .pending
        · exact .inl hstatus
        · exact absurd hpending (settled hown hturned hstatus)
      · exact .inr hterms
    · rcases hterms with hpending | ⟨-, halive⟩
      · cases hpending.symm.trans hrunning
      · exact absurd hdel halive
    · rw [hown] at hgone
      simp [hgone] at there

end Alignment

def Store.AllClaimed (s : Store) (id : UUID) (memberIds : List UUID) : Prop :=
  ∀ mid m, s.members.lookup mid = some m → m.instanceId = id → m.Working →
    m.status = .running ∧ mid ∈ memberIds

def ClaimsRows (s s' : Store) : {β : Type} → Transaction β → β → Prop
  | _, .claimMembers c, claimed => ∃ id, c.resourceId = some id ∧
      claimed.members = s.activeMembers id ∧
      (∀ mid ∈ claimed.memberIds, ∃ m, s.members.lookup mid = some m ∧ m.instanceId = id) ∧
      ∀ mid, (s'.members.lookup mid).map Member.terms = (s.members.lookup mid).map Member.terms
  | _, .claimCleanup c, claimed => ∃ id, c.resourceId = some id ∧
      (∀ mid ∈ claimed.memberIds, ∃ m, s.members.lookup mid = some m ∧ m.instanceId = id) ∧
      s'.AllClaimed id claimed.memberIds
  | _, _, _ => True

theorem Store.mem_claimedIds {s : Store} {id mid : UUID} {p : Member → Bool} :
    mid ∈ ((s.storedMembers id).filter fun m => p m.2).map Prod.fst ↔
      ∃ m, s.members.lookup mid = some m ∧ m.instanceId = id ∧ p m = true := by
  simp only [storedMembers, List.mem_map, List.mem_filter, List.mem_insertionSort,
    Table.mem_select, Prod.exists, beq_iff_eq]
  constructor
  · rintro ⟨mid, m, ⟨⟨hm, hown⟩, hp⟩, rfl⟩
    exact ⟨m, hm, hown, hp⟩
  · rintro ⟨m, hm, hown, hp⟩
    exact ⟨mid, m, ⟨⟨hm, hown⟩, hp⟩, rfl⟩

theorem Committed.claimsRows {s s' : Store} {β : Type} {t : Transaction β} {a : β}
    (hc : Committed s t a s') : ClaimsRows s s' t a := by
  cases hc with
  | @claimMembers c id i resource =>
      refine ⟨id, resource, rfl, fun mid hmid => ?_, fun mid => ?_⟩
      · obtain ⟨m, hm, hown, -⟩ :=
          (Store.mem_claimedIds (p := fun m => m.status.isActive)).mp hmid
        exact ⟨m, hm, hown⟩
      · rw [Table.lookup_updateWhere, Option.map_map]
        refine congrArg (fun f => Option.map f _) (funext fun m => ?_)
        dsimp only [Function.comp_apply]
        split <;> rfl
  | @claimCleanup c id i answer resource row named ids =>
      have hids : ∀ mid, mid ∈ answer.memberIds ↔ ∃ m, s.members.lookup mid = some m ∧
          m.instanceId = id ∧ (m.status == .running || m.status == .error) = true := fun mid =>
        ids ▸ Store.mem_claimedIds (p := fun m => m.status == .running || m.status == .error)
      refine ⟨id, resource, fun mid hmid => ?_, fun mid m' hm' hown hworking => ?_⟩
      · obtain ⟨m, hm, hown, -⟩ := (hids mid).mp hmid
        exact ⟨m, hm, hown⟩
      · obtain ⟨m, hm, rfl⟩ := Table.lookup_updateWhere_some.mp hm'
        split at hown
        · rename_i hp
          rw [if_pos hp]
          exact ⟨rfl, (hids mid).mpr ⟨m, hm, hown, (Bool.and_eq_true_iff.mp hp).2⟩⟩
        · rename_i hp
          rw [if_neg hp] at hworking
          exact absurd (by simpa [hown, Member.Working] using hworking) hp
  | _ => trivial

def FinalisesRows (s s' : Store) : {β : Type} → Transaction β → β → Prop
  | _, .finalizeUpdate c memberIds _, answer => answer ≠ .noop → ∃ job id i,
      s.ownedExecution c = some job ∧ s.ownedInstance job = some (id, i) ∧
      s'.members = (s.finalizeMembers id memberIds).members ∧ (answer = .success →
        (∀ mid m, s'.members.lookup mid = some m → m.instanceId = id → m.status ≠ .pending) ∧
        ∃ i', s'.instances.lookup id = some i' ∧ i'.status = .success)
  | _, _, _ => True

open Store in
theorem Committed.finalisesRows {s s' : Store} {β : Type} {t : Transaction β} {a : β}
    (hc : Committed s t a s') : FinalisesRows s s' t a := by
  cases hc with
  | finalizeStale => exact fun h => absurd rfl h
  | @finalizeUpdate c memberIds name job id i s₁ owned row final converged =>
      obtain ⟨htype, hid, hi⟩ := ownedInstance_eq_some.mp row
      refine fun _ => ⟨job, id, i, owned, row, ?_, fun _ => ⟨converged, ?_⟩⟩
      · exact final ▸ members_modifyResource _ _ _
      · have hsettled : s'.lifecycle .instance id =
            some { i.toLifecycle with status := .success, step := none } := by
          simp [final, settleExecution, lifecycle_modifyResource, lifecycle_finalizeMembers,
            JobExecution.lease, htype, hid, lifecycle_instance hi]
        obtain ⟨i', hi', hrow⟩ := Option.map_eq_some_iff.mp hsettled
        exact ⟨i', hi', congrArg Lifecycle.status hrow⟩
  | @finalizeAgain c memberIds name job id i s₁ owned row final =>
      refine fun _ => ⟨job, id, i, owned, row, ?_, fun h => by cases h⟩
      rw [members_stageJob, final]
      exact members_modifyResource _ _ _
  | _ => trivial

theorem Turned.not_settled {s s' : Store} {h : WorkerHistory} {memberId : UUID} {m : Member}
    {β : Type} {t : Transaction β} {status : Status} (ht : Turned s s' h memberId m t status)
    (departing : m.action = .deleting) (before : m.status ≠ .success) : status ≠ .success := by
  cases ht with
  | same => exact before
  | claimed | resumed => decide
  | released _ _ _ _ _ _ waits => rcases waits with rfl | rfl <;> decide
  | finished _ alive => exact absurd departing alive

def Store.Departing (s : Store) : Prop :=
  ∀ mid m, s.members.lookup mid = some m → m.action = .deleting → m.status ≠ .success

theorem Run.departing {w : World} {t : Trace} (h : Run w t) : w.store.Departing := by
  refine h.induction (motive := fun w _ => w.store.Departing) ?start ?move
  case start =>
    intro mid m hm
    cases hm
  case move =>
    intro w t what w' hrun hm ih mid m' hm' hdel hsettled
    rcases hm.store_cases with heq | ⟨now, heq⟩ | ⟨r, -, hr⟩ | ⟨worker, β, tr, a, -, hg, hc⟩
    · exact ih mid m' (heq ▸ hm') hdel hsettled
    · exact ih mid m' (by simpa [heq] using hm') hdel hsettled
    · rcases hr.member_cases hm' with ⟨-, hpending⟩ | ⟨m, row, -, -, rfl | hpending⟩
      · cases hpending.symm.trans hsettled
      · exact ih mid m' row hdel hsettled
      · cases hpending.symm.trans hsettled
    · obtain ⟨m, row, heq, hturned⟩ := hc.member_origin hg hm'
      rw [heq] at hdel
      exact hturned.not_settled hdel (ih mid m row hdel) hsettled

end CoderManager
