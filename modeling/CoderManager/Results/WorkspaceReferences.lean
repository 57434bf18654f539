import CoderManager.Refinement.References
import CoderManager.Results.AttemptFencing

/-!
# Workspaces are served

In every run the member, the image, the modules and the deployment of a
workspace are there. The one deletion that could take the wrong workspaces
along is that of an assignment, which names their pair from an earlier read.
-/
namespace CoderManager
open Programs Tables Leases

theorem Holds.mem_claims {worker : Nat} {t : Trace} {c : ExecutionClaim}
    (h : Holds (workerHistory worker t) c) : c ∈ claims t := by
  have hmem : claimEvent c ∈ workerHistory worker t := h.subset (List.mem_singleton_self _)
  obtain ⟨w, hw⟩ := mem_history.mp hmem
  exact List.mem_filterMap.mpr ⟨_, hw, rfl⟩

theorem Run.owned_resource {w : World} {t : Trace} (h : Run w t) {worker : Nat}
    {c : ExecutionClaim} {job : JobExecution} {type : ResourceType}
    (held : Holds (workerHistory worker t) c) (owned : w.store.ownedExecution c = some job)
    (htype : job.resourceType = some type) :
    c.resourceType = some type ∧ c.resourceId = job.resourceId := by
  obtain ⟨hrow, -⟩ := Store.ownedExecution_eq_some.mp owned
  have howner := h.claimsInOrder.resource c held.mem_claims job.lease (by simp [Store.ledger, hrow])
  have hkey : c.resourceType.map (fun type => (type, c.resourceId)) = some (type, job.resourceId) := by
    rw [← howner]
    simp [JobExecution.lease, htype]
  obtain ⟨type', htype', hpair⟩ := Option.map_eq_some_iff.mp hkey
  obtain ⟨rfl, hid⟩ := Prod.mk.inj hpair
  exact ⟨htype', hid⟩

def Store.AssignmentsGrow (s s' : Store) : Prop :=
  s.nextId ≤ s'.nextId ∧ ∀ id a', s'.assignments.lookup id = some a' → s.nextId ≤ id ∨
    ∃ a, s.assignments.lookup id = some a ∧ a'.instanceId = a.instanceId ∧
      a'.templateId = a.templateId

namespace Store.AssignmentsGrow
variable {s s' : Store}

theorem of_within (nextId : s.nextId ≤ s'.nextId)
    (h : Table.Within (fun a => (a.instanceId, a.templateId)) s.assignments s'.assignments) :
    s.AssignmentsGrow s' := by
  refine ⟨nextId, fun id a' ha' => .inr ?_⟩
  obtain ⟨a, ha, hcols⟩ := h id a' ha'
  obtain ⟨hi, ht⟩ := Prod.mk.inj hcols
  exact ⟨a, ha, hi, ht⟩

theorem of_eq (nextId : s.nextId ≤ s'.nextId) (same : s'.assignments = s.assignments) :
    s.AssignmentsGrow s' := of_within nextId (same ▸ .refl _ _)

theorem stageJob (name : JobName) (action : Action) (type : ResourceType) (id : UUID)
    (step : StepName) : s.AssignmentsGrow (s.stageJob name action type id step).2 :=
  of_within (Narrowed.stageJob name action type id step).nextId
    (Narrowed.stageJob name action type id step).assignments

theorem requestInstanceUpdate (id : UUID) (i : Instance) :
    s.AssignmentsGrow (s.requestInstanceUpdate id i) := by
  unfold Store.requestInstanceUpdate
  split
  · exact of_eq (Nat.le_refl _) rfl
  · exact stageJob _ _ _ _ _

theorem from_eq {s₀ : Store} (h : s.AssignmentsGrow s') (nextId : s₀.nextId ≤ s.nextId)
    (same : s.assignments = s₀.assignments) : s₀.AssignmentsGrow s' := by
  refine ⟨Nat.le_trans nextId h.1, fun id a' ha' => ?_⟩
  rcases h.2 id a' ha' with hid | ha
  · exact .inl (Nat.le_trans nextId hid)
  · exact .inr (same ▸ ha)

theorem accepted {r : Request} (h : Accepted s r s') : s.AssignmentsGrow s' := by
  cases h with
  | createInstance | createWorkspace => exact of_eq (Nat.le_add_right _ _) rfl
  | requestInstanceDeletion | requestStart | requestStop | requestAssignmentDeletion
  | requestWorkspaceDeletion => exact stageJob _ _ _ _ _
  | requestSync | createKubernetesProvider | updateWorkspace =>
      exact (stageJob _ _ _ _ _).from_eq (Nat.le_refl _) rfl
  | createDatabase | requestDatabaseSync | createTemplate | createImage | createUserParameter
  | createSystemParameter => exact of_eq (Nat.le_succ _) rfl
  | updateDatabase | deleteDatabase | keepMemberRole | keepTemplate | deleteImage
  | updateParameter | updateSystemValue | deleteUserParameter | deleteSystemParameter
  | keepAssignment | keepAssignmentDeletion | keepWorkspace => exact of_eq (Nat.le_refl _) rfl
  | createMember => exact (requestInstanceUpdate _ _).from_eq (Nat.le_succ _) rfl
  | updateMemberRole | requestMemberDeletion =>
      exact (requestInstanceUpdate _ _).from_eq (Nat.le_refl _) rfl
  | updateTemplate | deleteTemplate => exact of_eq (by simp) (by simp)
  | requestTemplateSync => exact (stageJob _ _ _ _ _).from_eq (by simp) (by simp)
  | putAssignment =>
      refine ⟨Nat.le_add_right _ 2, fun id a' ha' => ?_⟩
      rcases Table.lookup_insert_cases ha' with ⟨rfl, -⟩ | ⟨-, ha⟩
      · exact .inl (Nat.le_refl _)
      · exact .inr ⟨a', ha, rfl, rfl⟩

end Store.AssignmentsGrow

theorem Moved.assignments_grow {w w' : World} {t : Trace} {what : WhatHappened}
    (hm : Moved w t what w') : w.store.AssignmentsGrow w'.store := by
  rcases hm.store_cases with h | ⟨now, h⟩ | ⟨r, -, h⟩ | ⟨worker, β, tr, a, -, -, h⟩
  · exact h ▸ .of_eq (Nat.le_refl _) rfl
  · exact h ▸ .of_eq (Nat.le_refl _) rfl
  · exact .accepted h
  · exact .of_within (Narrowed.committed h).nextId (Narrowed.committed h).assignments

/-- What a worker read of an assignment it removes still tells its pair. -/
def RemovalsFit (s : Store) (t : Trace) : Prop :=
  ∀ worker assignmentId snapshot, Read (workerHistory worker t) (.removalSnapshot assignmentId)
    snapshot → assignmentId < s.nextId ∧ ∀ a, s.assignments.lookup assignmentId = some a →
      a.templateId = snapshot.templateId ∧ a.instanceId = snapshot.instanceId

theorem Store.removalSnapshot_ok {s : Store} {assignmentId : UUID}
    {snapshot : TemplateRemovalSnapshot} (h : s.removalSnapshot assignmentId = .ok snapshot) :
    ∃ a, s.assignments.lookup assignmentId = some a ∧ snapshot.templateId = a.templateId ∧
      snapshot.instanceId = a.instanceId := by
  simp only [removalSnapshot, bind_eq_ok, found_eq_ok] at h
  obtain ⟨a, ha, i, -, h⟩ := h
  refine ⟨a, ha, ?_⟩
  split at h
  · simp only [bind_eq_ok, pure_eq_ok] at h
    obtain ⟨password, -, rfl⟩ := h
    exact ⟨rfl, rfl⟩
  · split at h
    · cases h
    · simp only [bind_eq_ok, pure_eq_ok] at h
      obtain ⟨_, -, _, -, _, -, rfl⟩ := h
      exact ⟨rfl, rfl⟩

theorem Run.removalsFit {w : World} {t : Trace} (h : Run w t) : RemovalsFit w.store t := by
  refine h.induction (motive := fun w t => RemovalsFit w.store t) ?start ?move
  case start =>
    intro worker assignmentId snapshot hread
    exact absurd hread List.not_mem_nil
  case move =>
    intro w t what w' hrun hm ih worker assignmentId snapshot hread
    obtain ⟨hnext, hgrow⟩ := hm.assignments_grow
    rcases mem_workerHistory_cons.mp hread with rfl | hold
    · obtain ⟨hanswer, rfl⟩ := hm.read
      obtain ⟨a, ha, ht, hi⟩ := Store.removalSnapshot_ok hanswer
      refine ⟨(hrun.sound.grounded.assignments _ a ha).1, fun a' ha' => ?_⟩
      obtain rfl : a = a' := Option.some.inj (ha.symm.trans ha')
      exact ⟨ht.symm, hi.symm⟩
    · obtain ⟨hlt, hfit⟩ := ih worker assignmentId snapshot hold
      refine ⟨Nat.lt_of_lt_of_le hlt hnext, fun a' ha' => ?_⟩
      rcases hgrow assignmentId a' ha' with hnew | ⟨a, ha, hi, ht⟩
      · exact absurd hlt (Nat.not_lt.mpr hnew)
      · rw [hi, ht]
        exact hfit a ha

theorem Run.removes_pair {w : World} {t : Trace} (h : Run w t) {worker : Nat} {β : Type}
    {tr : Transaction β} (allowed : Discipline.transaction (workerHistory worker t) tr) :
    RemovesPair w.store tr := by
  cases tr with
  | removeLocalAssignment c snapshot =>
      intro job id a owned htype hid ha
      obtain ⟨held, -, assignmentId, hres, hread⟩ := allowed
      obtain ⟨-, hsame⟩ := h.owned_resource held owned htype
      obtain rfl : assignmentId = id := by simpa [hres, hid] using hsame
      exact (h.removalsFit worker assignmentId snapshot hread).2 a ha
  | _ => trivial

theorem Run.referenced {w : World} {t : Trace} (h : Run w t) : w.store.Referenced := by
  refine h.induction (motive := fun w _ => w.store.Referenced) ?start ?move
  case start => exact Store.Referenced.empty
  case move =>
    intro w t what w' hrun hm ih
    rcases hm.store_cases with h | ⟨now, h⟩ | ⟨r, -, h⟩ | ⟨worker, β, tr, a, -, allowed, h⟩
    · exact h ▸ ih
    · exact h ▸ ih.of_eq (Nat.le_refl _) rfl rfl rfl rfl rfl rfl
    · exact h.referenced hrun.sound.grounded ih
    · exact h.referenced allowed hrun.sound.ledger (hrun.removes_pair allowed) ih

namespace Store
variable {s s' : Store}

/-- With everything a workspace refers to in place, its snapshot is refused for
the administrator password alone. -/
theorem Referenced.workspaceRemoteSnapshot (h : Referenced s) (hg : Grounded s) {id : UUID}
    {w : Workspace} (row : s.workspaces.lookup id = some w) :
    ∃ i, s.instances.lookup w.instanceId = some i ∧ (i.passwordEnc = none ∨
      (∃ envelope, i.passwordEnc = some envelope ∧ envelope.decrypt w.instanceId = none) ∨
      ∃ snapshot, s.workspaceRemoteSnapshot id = .ok snapshot) := by
  obtain ⟨-, ⟨i, hi⟩, -⟩ := hg.workspaces id w row
  obtain ⟨m, hm, -⟩ := (h.workspaces id w row).owner
  obtain ⟨aid, a, d, ha, hat, hai, hd, hset⟩ := (h.workspaces id w row).deployed
  obtain ⟨coderTemplateId, hcoder⟩ := Option.isSome_iff_exists.mp hset
  -- The assignment found for the pair is the deployed one.
  have hfind : (s.assignments.find? fun _ a => a.templateId == w.templateId &&
      a.instanceId == w.instanceId) = some (aid, a) := by
    cases hf : s.assignments.find? fun _ a => a.templateId == w.templateId &&
        a.instanceId == w.instanceId with
    | none =>
        have hno := Table.find?_eq_none.mp hf aid a ha
        simp [hat, hai] at hno
    | some found =>
        obtain ⟨aid', a'⟩ := found
        obtain ⟨ha', hp⟩ := Table.find?_eq_some hf
        simp only [Bool.and_eq_true, beq_iff_eq] at hp
        obtain rfl := h.pairs aid aid' a a' ha ha' (hai.trans hp.2.symm) (hat.trans hp.1.symm)
        rw [Option.some.inj (ha.symm.trans ha')]
  refine ⟨i, hi, ?_⟩
  cases hpw : i.passwordEnc with
  | none => exact .inl rfl
  | some envelope =>
      refine .inr ?_
      cases hdec : envelope.decrypt w.instanceId with
      | none => exact .inl ⟨envelope, rfl, hdec⟩
      | some password =>
          refine .inr ?_
          unfold Store.workspaceRemoteSnapshot
          simp [found, row, hi, hm, hfind, hd, hcoder, hpw, hdec, bind, Except.bind, pure, Except.pure]

theorem workspaces_deleteTemplate {id : UUID} (h : Accepted s (.deleteTemplate id) s') :
    s'.workspaces = s.workspaces := by
  cases h
  simp

theorem workspaces_deleteImage {id imageId : UUID} (h : Accepted s (.deleteImage id imageId) s') :
    s'.workspaces = s.workspaces := by
  cases h
  rfl

/-- Finalising an update removes no workspace: no member who leaves has one. -/
theorem Referenced.workspaces_finalized (h : Referenced s) {memberIds : List UUID} {s₁ : Store}
    (hf : Finalized s memberIds s₁) {wid : UUID} {w : Workspace}
    (row : s.workspaces.lookup wid = some w) : s₁.workspaces.lookup wid = some w := by
  obtain ⟨m, hm, -, hact⟩ := (h.workspaces wid w row).owner
  obtain ⟨c, name, job, id, i, hrow, rfl⟩ := hf.settled
  obtain ⟨htype, hid, -⟩ := ownedInstance_eq_some.mp hrow
  have hkept : ((s.finalizeMembers id memberIds).workspaces).lookup wid = some w :=
    Table.lookup_deleteWhere_some.mpr ⟨row, by simp [hm, hact]⟩
  simp only [settleExecution, modifyResource, htype, hid, modifyLifecycle, modifyJob]
  exact hkept

end Store

/-- Every workspace is served, in every run. -/
theorem workspaces_are_served (steps : List Step) :
    let s := (run steps).world.store
    -- Its member, its image, its modules and its deployment belong together.
    (∀ id w, s.workspaces.lookup id = some w →
      (∃ m, s.members.lookup w.memberId = some m ∧ m.instanceId = w.instanceId ∧
        m.action ≠ .deleting) ∧
      (∃ i, s.images.lookup w.imageId = some i ∧ i.templateId = w.templateId) ∧
      (∃ t, s.templates.lookup w.templateId = some t ∧ ∀ m ∈ w.modules, m ∈ t.modules) ∧
      ∃ aid a d, s.assignments.lookup aid = some a ∧ a.templateId = w.templateId ∧
        a.instanceId = w.instanceId ∧ s.deployments.lookup aid = some d ∧
        d.coderTemplateId.isSome = true) ∧
    -- Its remote snapshot fails for want of the administrator password alone.
    (∀ id w, s.workspaces.lookup id = some w →
      ∃ i, s.instances.lookup w.instanceId = some i ∧ (i.passwordEnc = none ∨
        (∃ envelope, i.passwordEnc = some envelope ∧ envelope.decrypt w.instanceId = none) ∨
        ∃ snapshot, s.workspaceRemoteSnapshot id = .ok snapshot)) ∧
    -- No deletion of a template, an image or a member takes what a workspace needs.
    (∀ templateId s', (Request.deleteTemplate templateId).handle s = .ok s' →
      ∀ id w, s.workspaces.lookup id = some w →
        s'.workspaces.lookup id = some w ∧ s'.Serves w) ∧
    (∀ templateId imageId s', (Request.deleteImage templateId imageId).handle s = .ok s' →
      ∀ id w, s.workspaces.lookup id = some w →
        s'.workspaces.lookup id = some w ∧ s'.Serves w) ∧
    (∀ token c memberIds name answer s',
      s.transact token (.finalizeUpdate c memberIds name) = .ok (answer, s') →
      ∀ id w, s.workspaces.lookup id = some w →
        s'.workspaces.lookup id = some w ∧ s'.Serves w) := by
  intro s
  have hrun := run_reaches steps
  have hg : s.Grounded := hrun.sound.grounded
  have hs : s.Referenced := hrun.referenced
  refine ⟨fun id w hw => ?_, fun id w hw => hs.workspaceRemoteSnapshot hg hw, ?_, ?_, ?_⟩
  · obtain ⟨howner, himage, hmodules, hdeployed⟩ := hs.workspaces id w hw
    exact ⟨howner, himage, hmodules, hdeployed⟩
  · intro templateId s' hdel id w hw
    have hacc := Request.accepted hdel
    have hw' : s'.workspaces.lookup id = some w := Store.workspaces_deleteTemplate hacc ▸ hw
    exact ⟨hw', (hacc.referenced hg hs).workspaces id w hw'⟩
  · intro templateId imageId s' hdel id w hw
    have hacc := Request.accepted hdel
    have hw' : s'.workspaces.lookup id = some w := Store.workspaces_deleteImage hacc ▸ hw
    exact ⟨hw', (hacc.referenced hg hs).workspaces id w hw'⟩
  · intro token c memberIds name answer s' hfin id w hw
    rcases Store.finalizes_of_committed (Store.committed hfin) with rfl | ⟨s₁, hf, h⟩
    · exact ⟨hw, hs.workspaces id w hw⟩
    · have hs₁ := hf.sustains.referenced hs
      have hw₁ := hs.workspaces_finalized hf hw
      rcases h with rfl | ⟨instanceId, rfl⟩
      · exact ⟨hw₁, hs₁.workspaces id w hw₁⟩
      · have hstaged := (Store.sustains_stageJob .instanceUpdate .updating .instance instanceId
          .instanceUpdateStep01).referenced hs₁
        exact ⟨hw₁, hstaged.workspaces id w hw₁⟩

end CoderManager
