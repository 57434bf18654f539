import CoderManager.Refinement.References
import CoderManager.Runs

/-!
# Transactions of a publication

What the transactions of a publication require and what they leave of the
deployment of their assignment.
-/
namespace CoderManager
open Programs Tables

/-- A transaction raises and leaves the world alone, or commits. -/
theorem World.perform_transaction {w w' : World} {reply : Reply} {β : Type} {t : Transaction β}
    {r : Except WorkerError β} (h : w.perform reply (.transaction t) = (r, w')) :
    (∃ e, r = .error e ∧ w' = w) ∨ ∃ token a s, r = .ok a ∧ w.store.transact token t = .ok (a, s) ∧
      w' = ⟨s⟩ := by
  simp only [World.perform] at h
  split at h
  · cases h
    exact .inl ⟨_, rfl, rfl⟩
  · split at h
    · rename_i a s hs
      cases h
      exact .inr ⟨_, a, s, rfl, hs, rfl⟩
    · rename_i e he
      cases h
      exact .inl ⟨e, rfl, rfl⟩

namespace TemplateDeployment

/-- The recorded version, if the deployment already aims at this commit and
revision. -/
def keptVersion (d : TemplateDeployment) (commit : String) (revision : Nat) : Option UUID :=
  if d.targetCommit = some commit ∧ d.targetSystemParameterRevision = some revision then
    d.coderTemplateVersionId else none

/-- The deployment once a publication has prepared it. -/
def aimed (d : TemplateDeployment) (commit : String) (revision : Nat) : TemplateDeployment :=
  { d with
    coderTemplateVersionId := d.keptVersion commit revision
    targetCommit := some commit, targetSystemParameterRevision := some revision
    status := .running }

def identified (d : TemplateDeployment) (organizationId templateId versionId : Option UUID) :
    TemplateDeployment :=
  { d with
    coderOrganizationId := organizationId <|> d.coderOrganizationId
    coderTemplateId := templateId <|> d.coderTemplateId
    coderTemplateVersionId := versionId <|> d.coderTemplateVersionId }

def finished (d : TemplateDeployment) (commit : String) (revision : Nat) (success : Bool) :
    TemplateDeployment :=
  if success then { d with
    status := .success, appliedCommit := some commit
    appliedSystemParameterRevision := some revision }
  else { d with status := .error }

end TemplateDeployment

namespace Store
variable {s s' : Store} {claim : ExecutionClaim} {assignmentId : UUID}

/-- The fence of deployment writes is at least as strong as that of the other
writes. -/
theorem ownedExecution_of_lock {expected : Option UUID} {target : OwnedTemplateTarget}
    (h : s.lockOwnedTemplateTarget claim assignmentId expected = .ok target) :
    ∃ job, s.ownedExecution claim = some job := by
  obtain ⟨job, a, i, t, hjob, hmatch, ha, hi, ht, howns, -, -⟩ := lockOwnedTemplateTarget_ok h
  refine ⟨job, ?_⟩
  simp only [jobMatchesClaim, Bool.and_eq_true, beq_iff_eq] at hmatch
  obtain ⟨⟨⟨⟨⟨htask, hstep⟩, hattempt⟩, hstatus⟩, -⟩, -⟩ := hmatch
  have hresource : resourceMatches claim.jobId job (s.resourceForJob job) = true := by
    simp only [jobOwnsSyncResource] at howns
    split at howns
    · rename_i hname
      simp only [Bool.and_eq_true, beq_iff_eq] at howns
      obtain ⟨⟨⟨⟨hid, howner⟩, haction⟩, hresourceStep⟩, -⟩ := howns
      simp [resourceMatches, resourceForJob, lifecycle, hname, hid, ht, howner, haction,
        hresourceStep, resourceActions]
    · split at howns
      · rename_i hname
        simp only [Bool.and_eq_true, beq_iff_eq] at howns
        obtain ⟨⟨⟨⟨hid, howner⟩, haction⟩, hresourceStep⟩, -⟩ := howns
        simp [resourceMatches, resourceForJob, lifecycle, hname, hid, ha, howner, haction,
          hresourceStep, resourceActions]
      · cases howns
  simp only [ownedExecution, hjob]
  exact if_pos ⟨htask, hstep, hattempt, hstatus, hresource⟩

theorem prepareDeployment_ok {templateId : UUID} {commit : String} {revision : Nat}
    {p : TemplateDeploymentPreparation}
    (h : s.prepareDeployment claim assignmentId templateId commit revision = .ok (p, s')) :
    ∃ target d, s.lockOwnedTemplateTarget claim assignmentId (some templateId) = .ok target ∧
      d = (s.deployments.lookup assignmentId).getD newDeployment ∧
      ((deploymentApplied d commit revision = true ∧ p.alreadyApplied = true ∧ s' = s) ∨
        (deploymentApplied d commit revision = false ∧ p.alreadyApplied = false ∧
          p.instanceUrl = target.instanceId ∧ p.persistedTemplateId = d.coderTemplateId ∧
          p.persistedVersionId = d.keptVersion commit revision ∧
          s' = { s with
            deployments := s.deployments.insert assignmentId (d.aimed commit revision) })) := by
  simp only [prepareDeployment, bind_eq_ok] at h
  obtain ⟨target, htarget, h⟩ := h
  obtain ⟨job, a, i, t, -, -, -, -, -, -, -, rfl⟩ := lockOwnedTemplateTarget_ok htarget
  refine ⟨_, _, htarget, rfl, ?_⟩
  split at h
  · cases h
  · simp only [bind_eq_ok, found_eq_ok] at h
    obtain ⟨envelope, -, h⟩ := h
    split at h
    · rename_i happlied
      simp only [pure_eq_ok, Prod.mk.injEq] at h
      obtain ⟨rfl, rfl⟩ := h
      exact .inl ⟨happlied, rfl, rfl⟩
    · rename_i hfresh
      simp only [bind_eq_ok, pure_eq_ok, Prod.mk.injEq] at h
      obtain ⟨password, -, values, -, rfl, rfl⟩ := h
      refine .inr ⟨by simpa using hfresh, rfl, rfl, rfl, ?_, ?_⟩
      · simp only [TemplateDeployment.keptVersion, Bool.and_eq_true, beq_iff_eq]
      · simp only [TemplateDeployment.aimed, TemplateDeployment.keptVersion, Bool.and_eq_true,
          beq_iff_eq]

def modifyDeployment (s : Store) (id : UUID) (f : TemplateDeployment → TemplateDeployment) : Store :=
  { s with deployments := s.deployments.modify id f }

@[simp] theorem modifyDeployment_deployments (s : Store) (id : UUID)
    (f : TemplateDeployment → TemplateDeployment) :
    (s.modifyDeployment id f).deployments = s.deployments.modify id f := rfl

theorem storeTemplateRemoteIds_ok {organizationId templateId versionId : Option UUID}
    (h : s.storeTemplateRemoteIds claim assignmentId organizationId templateId versionId = .ok s') :
    ∃ target d, s.lockOwnedTemplateTarget claim assignmentId none = .ok target ∧
      s.deployments.lookup assignmentId = some d ∧
      s' = s.modifyDeployment assignmentId fun d =>
        d.identified organizationId templateId versionId := by
  simp only [storeTemplateRemoteIds, bind_eq_ok, pure_eq_ok, found_eq_ok] at h
  obtain ⟨target, htarget, d, hd, rfl⟩ := h
  obtain ⟨job, a, i, t, -, -, -, -, -, -, -, rfl⟩ := lockOwnedTemplateTarget_ok htarget
  exact ⟨_, d, htarget, hd, rfl⟩

end Store
end CoderManager
