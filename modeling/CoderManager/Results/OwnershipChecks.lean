import CoderManager.Refinement.Templates
import CoderManager.Results.AttemptFencing

/-!
# Two ownership checks

Deployment writes are fenced by a check of their own. It takes the rows in
another order and looks at more columns than the check of every other write, and
the two agree on the claims of publications.
-/
namespace CoderManager
open Leases Tables

/-- The assignments an attempt publishes to: those of its template, or the one it
creates. -/
def ExecutionClaim.Publishes (c : ExecutionClaim) (assignmentId : UUID) (a : TemplateAssignment) :
    Prop :=
  (c.step = .templateSyncStep01 ∧ c.resourceType = some .template ∧
      c.resourceId = some a.templateId) ∨
    (c.step = .templateAssignmentCreateStep01 ∧ c.resourceType = some .templateAssignment ∧
      c.resourceId = some assignmentId)

namespace Store
variable {s : Store} {c : ExecutionClaim} {assignmentId : UUID} {a : TemplateAssignment}
  {i : Instance} {t : Template} {job : JobExecution}

theorem lockOwnedTemplateTarget_cases {expected : Option UUID}
    (assignment : s.assignments.lookup assignmentId = some a)
    (inst : s.instances.lookup a.instanceId = some i)
    (template : s.templates.lookup a.templateId = some t)
    (expects : ∀ id, expected = some id → id = a.templateId) :
    (∃ target, s.lockOwnedTemplateTarget c assignmentId expected = .ok target) ∨
      s.lockOwnedTemplateTarget c assignmentId expected = .error claimLost := by
  have hexpected : (expected.any fun id => id != a.templateId) = false := by
    cases expected with
    | none => rfl
    | some id => simpa using expects id rfl
  simp only [lockOwnedTemplateTarget, found, assignment, inst, template, hexpected, bind, Except.bind,
    Bool.false_eq_true, if_false]
  cases s.jobs.lookup c.jobId with
  | none => exact .inr rfl
  | some job =>
      cases hmatch : jobMatchesClaim job c with
      | false => exact .inr (by simp [hmatch, throw, throwThe, MonadExceptOf.throw])
      | true =>
          cases howns : jobOwnsSyncResource c.jobId job a.templateId t assignmentId a with
          | false => exact .inr (by simp [hmatch, howns, throw, throwThe, MonadExceptOf.throw])
          | true => exact .inl ⟨_, by simp [hmatch, howns, pure, Except.pure]; rfl⟩

/-- What the fence asks of the job and its resource is enough for it. -/
theorem lockOwnedTemplateTarget_of_owns {expected : Option UUID}
    (row : s.jobs.lookup c.jobId = some job) (hmatch : jobMatchesClaim job c = true)
    (assignment : s.assignments.lookup assignmentId = some a)
    (inst : s.instances.lookup a.instanceId = some i)
    (template : s.templates.lookup a.templateId = some t)
    (howns : jobOwnsSyncResource c.jobId job a.templateId t assignmentId a = true)
    (expects : ∀ id, expected = some id → id = a.templateId) :
    ∃ target, s.lockOwnedTemplateTarget c assignmentId expected = .ok target := by
  have hexpected : (expected.any fun id => id != a.templateId) = false := by
    cases expected with
    | none => rfl
    | some id => simpa using expects id rfl
  refine ⟨⟨a.instanceId, i, a.templateId, t, a, s.deployments.lookup assignmentId⟩, ?_⟩
  simp only [lockOwnedTemplateTarget, found, row, hmatch, assignment, inst, template, howns, hexpected,
    bind, Except.bind, Bool.not_true, Bool.false_eq_true, if_false]
  rfl

end Store

theorem publication_jobs {name : JobName} {step : StepName} (h : step ∈ name.steps) :
    (step = .templateSyncStep01 → name = .templateSync) ∧
      (step = .templateAssignmentCreateStep01 → name = .templateAssignmentCreate) := by
  revert h
  cases name <;> cases step <;> decide

/-- While the lease is current the fence lets its writes through. -/
theorem Sound.lock_of_owned {s : Store} (hs : Sound s) {t : Trace} (ht : ClaimsInOrder s t)
    {c : ExecutionClaim} (hc : c ∈ claims t) {job : JobExecution} (owned : s.ownedExecution c = some job)
    {assignmentId : UUID} {a : TemplateAssignment} {i : Instance} {tpl : Template}
    (assignment : s.assignments.lookup assignmentId = some a)
    (inst : s.instances.lookup a.instanceId = some i)
    (template : s.templates.lookup a.templateId = some tpl) (publishes : c.Publishes assignmentId a)
    {expected : Option UUID} (expects : ∀ id, expected = some id → id = a.templateId) :
    ∃ target, s.lockOwnedTemplateTarget c assignmentId expected = .ok target := by
  obtain ⟨row, htask, hstep, hattempt, hrun, hm⟩ := Store.ownedExecution_eq_some.mp owned
  have hjob : s.ledger.jobs c.jobId = some job.lease := by simp [Store.ledger, row]
  have howner := ht.resource c hc job.lease hjob
  obtain ⟨hmem, -⟩ := hs.ledger.stage c.jobId job.lease hjob
  obtain ⟨hsync, hcreate⟩ := publication_jobs hmem
  have hresource : job.resourceType = c.resourceType ∧ job.resourceId = c.resourceId := by
    obtain ⟨-, htype, -⟩ | ⟨-, htype, -⟩ := publishes
    all_goals
      rw [htype, Option.map_some, JobExecution.lease_owner] at howner
      exact ⟨howner.1.trans htype.symm, howner.2⟩
  have hmatch : jobMatchesClaim job c = true := by
    simp [jobMatchesClaim, htask, hstep, hattempt, hrun, hresource.1, hresource.2]
  refine Store.lockOwnedTemplateTarget_of_owns row hmatch assignment inst template ?_ expects
  -- The resource names the job, so its status is that of the job.
  have hkey : ∀ type id r, job.resourceType = some type → job.resourceId = some id →
      s.lifecycle type id = some r → r.jobId = some c.jobId ∧
        resourceActions job.name = some r.action ∧ r.step = some job.step ∧ r.status = .running := by
    intro type id r htype hid hr
    have hr' : s.ledger.owners (type, some id) = some r := by simpa [Store.ledger] using hr
    obtain ⟨r', hr'', hjobId, haction, hrstep⟩ :=
      hm (type, some id) (JobExecution.lease_owner.mpr ⟨htype, hid⟩)
    cases hr'.symm.trans hr''
    obtain ⟨b, hb, -, hstatus⟩ := hs.ledger.current _ r c.jobId hr' hjobId
    cases hjob.symm.trans hb
    exact ⟨hjobId, haction, hrstep, hstatus.symm.trans hrun⟩
  rcases publishes with ⟨hs₁, htype, hid⟩ | ⟨hs₁, htype, hid⟩
  · have hname : job.name = .templateSync := hsync (hstep.trans hs₁)
    obtain ⟨howns, haction, hrstep, hrunning⟩ := hkey .template a.templateId tpl.toLifecycle
      (hresource.1.trans htype) (hresource.2.trans hid) (by simp [Store.lifecycle, template])
    rw [hname, resourceActions, Option.some.injEq] at haction
    simp [jobOwnsSyncResource, hname, hresource.1, htype, hresource.2, hid, howns, hrstep, hrunning,
      ← haction]
  · have hname : job.name = .templateAssignmentCreate := hcreate (hstep.trans hs₁)
    obtain ⟨howns, haction, hrstep, hrunning⟩ := hkey .templateAssignment assignmentId a.toLifecycle
      (hresource.1.trans htype) (hresource.2.trans hid) (by simp [Store.lifecycle, assignment])
    rw [hname, resourceActions, Option.some.injEq] at haction
    simp [jobOwnsSyncResource, hname, hresource.1, htype, hresource.2, hid, howns, hrstep, hrunning,
      ← haction]

/-- In every reachable state the two checks agree on every claim that was ever
handed out for a publication, and a deployment is written only while the claim
is current. -/
theorem ownership_checks_agree (steps : List Step) : let s := (run steps).world.store
    (∀ c ∈ claims (run steps).trace, ∀ assignmentId a i t,
      s.assignments.lookup assignmentId = some a → s.instances.lookup a.instanceId = some i →
      s.templates.lookup a.templateId = some t → c.Publishes assignmentId a →
      ∀ expected : Option UUID, (∀ id, expected = some id → id = a.templateId) →
        ((∃ target, s.lockOwnedTemplateTarget c assignmentId expected = .ok target) ↔
          (s.ownedExecution c).isSome = true) ∧
        (s.lockOwnedTemplateTarget c assignmentId expected = .error claimLost ↔
          s.ownedExecution c = none)) ∧
    ∀ c assignmentId,
      (∀ templateId commit revision prepared,
        s.prepareDeployment c assignmentId templateId commit revision = .ok prepared →
          (s.ownedExecution c).isSome = true) ∧
      (∀ organizationId templateId versionId s',
        s.storeTemplateRemoteIds c assignmentId organizationId templateId versionId = .ok s' →
          (s.ownedExecution c).isSome = true) ∧
      ∀ commit revision success s',
        s.finishDeployment c assignmentId commit revision success = .ok s' →
          (s.ownedExecution c).isSome = true := by
  intro s
  have hrun := run_reaches steps
  refine ⟨?_, fun c assignmentId => ⟨?_, ?_, ?_⟩⟩
  · intro c hc assignmentId a i t assignment inst template publishes expected expects
    have hagree : (∃ target, s.lockOwnedTemplateTarget c assignmentId expected = .ok target) ↔
        (s.ownedExecution c).isSome = true := by
      constructor
      · rintro ⟨target, hlock⟩
        exact Option.isSome_iff_exists.mpr (Store.ownedExecution_of_lock hlock)
      · intro howned
        obtain ⟨job, howned⟩ := Option.isSome_iff_exists.mp howned
        exact hrun.sound.lock_of_owned hrun.claimsInOrder hc howned assignment inst template
          publishes expects
    refine ⟨hagree, ?_⟩
    rw [← Option.not_isSome_iff_eq_none, ← hagree]
    constructor
    · rintro herror ⟨target, hlock⟩
      cases herror.symm.trans hlock
    · exact (Store.lockOwnedTemplateTarget_cases assignment inst template expects).resolve_left
  · rintro templateId commit revision ⟨p, s'⟩ h
    obtain ⟨target, d, hlock, -⟩ := Store.prepareDeployment_ok h
    exact Option.isSome_iff_exists.mpr (Store.ownedExecution_of_lock hlock)
  · intro organizationId templateId versionId s' h
    obtain ⟨target, d, hlock, -⟩ := Store.storeTemplateRemoteIds_ok h
    exact Option.isSome_iff_exists.mpr (Store.ownedExecution_of_lock hlock)
  · intro commit revision success s' h
    simp only [Store.finishDeployment, bind_eq_ok] at h
    obtain ⟨target, hlock, -⟩ := h
    exact Option.isSome_iff_exists.mpr (Store.ownedExecution_of_lock hlock)

def publishingClaim : ExecutionClaim where
  jobId := 8
  taskName := StepName.templateAssignmentCreateStep01.task
  step := .templateAssignmentCreateStep01
  attempt := 1
  resourceType := some .templateAssignment
  resourceId := some 7

/-- Before the last answer the attempt still owns its job. -/
theorem publication_is_locked :
    (∃ target, (run deploying.dropLast).world.store.lockOwnedTemplateTarget publishingClaim 7
      (some 5) = .ok target) ∧
    (run deploying).world.store.lockOwnedTemplateTarget publishingClaim 7 (some 5) =
      .error claimLost := by
  have agree : ∀ steps, publishingClaim ∈ claims (run steps).trace →
      ((run steps).world.store.assignments.lookup 7).map (fun a => (a.instanceId, a.templateId)) =
        some (1, 5) →
      ((run steps).world.store.instances.lookup 1).isSome = true →
      ((run steps).world.store.templates.lookup 5).isSome = true →
      ((∃ target, (run steps).world.store.lockOwnedTemplateTarget publishingClaim 7 (some 5) =
        .ok target) ↔ ((run steps).world.store.ownedExecution publishingClaim).isSome = true) ∧
      ((run steps).world.store.lockOwnedTemplateTarget publishingClaim 7 (some 5) =
        .error claimLost ↔ (run steps).world.store.ownedExecution publishingClaim = none) := by
    intro steps hclaim hassignment hinstance htemplate
    obtain ⟨a, ha, hrow⟩ := Option.map_eq_some_iff.mp hassignment
    obtain ⟨hinst, htpl⟩ := Prod.mk.inj hrow
    obtain ⟨i, hi⟩ := Option.isSome_iff_exists.mp hinstance
    obtain ⟨t, ht⟩ := Option.isSome_iff_exists.mp htemplate
    refine (ownership_checks_agree steps).1 publishingClaim hclaim 7 a i t ha (hinst ▸ hi)
      (htpl ▸ ht) (.inr ⟨rfl, rfl, rfl⟩) (some 5) ?_
    rintro id ⟨⟩
    exact htpl.symm
  constructor
  · exact (agree deploying.dropLast (by decide +kernel) (by decide +kernel) (by decide +kernel)
      (by decide +kernel)).1.mpr (by decide +kernel)
  · exact (agree deploying (by decide +kernel) (by decide +kernel) (by decide +kernel)
      (by decide +kernel)).2.mpr (by decide +kernel)

end CoderManager
