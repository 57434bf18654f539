import CoderManager.Refinement.Instances

/-!
# The instance lifecycle only goes forward

An instance that is being deleted stays so under the same job, and the job that
creates an instance is replaced by its deletion alone.
-/
namespace CoderManager
open Tables Leases

def JobExecution.Creates (job : JobExecution) (id : UUID) : Prop :=
  job.name = .instanceCreate ∧ job.resourceType = some .instance ∧ job.resourceId = some id

namespace Store

/-- A deletion is never settled, and an unfinished creation is the current job of
its instance unless the instance is being deleted. -/
structure Forward (s : Store) : Prop where
  deleting : ∀ id i, s.instances.lookup id = some i → i.action = .deleting → i.status ≠ .success
  known : ∀ j job id, s.jobs.lookup j = some job → job.Creates id → id < s.nextId
  creation : ∀ id i j job, s.instances.lookup id = some i → s.jobs.lookup j = some job →
    job.Creates id → job.status ≠ .success →
    (i.action = .creating ∧ i.jobId = some j) ∨ i.action = .deleting

theorem Forward.empty : Forward Store.empty := by
  constructor <;> intros <;> contradiction

end Store

/-- A worker goes on with the action and the job of an instance, except that an
update or a start may be followed by another update. -/
theorem Worked.keeps {r r' : Lifecycle} (h : Worked .instance r r') :
    (r'.action = r.action ∧ r'.jobId = r.jobId) ∨ r.action = .updating ∨ r.action = .starting := by
  cases h with
  | same | claimed | released | advanced | settled => exact .inl ⟨rfl, rfl⟩
  | restaged _ _ updates => exact .inr updates

theorem Worked.deletes {r r' : Lifecycle} (h : Worked .instance r r') (deletes : r'.action = .deleting) :
    r.action = .deleting := by
  cases h with
  | same | claimed | released | advanced | settled => exact deletes
  | restaged => cases deletes

theorem Worked.deletion {r r' : Lifecycle} (h : Worked .instance r r') (deleting : r.action = .deleting)
    (active : r.status ≠ .success) :
    r'.action = .deleting ∧ r'.jobId = r.jobId ∧ r'.status ≠ .success := by
  cases h with
  | same => exact ⟨deleting, rfl, active⟩
  | claimed => exact ⟨deleting, rfl, by simp⟩
  | released _ idle => exact ⟨deleting, rfl, by rcases idle with h | h <;> simp [h]⟩
  | advanced => exact ⟨deleting, rfl, by simp⟩
  | settled _ alive => exact absurd deleting (alive rfl)
  | restaged _ _ updates => rcases updates with h | h <;> rw [deleting] at h <;> cases h

section Move
variable {w w' : World} {t : Trace} {what : WhatHappened} {id : UUID} {i i' : Instance}

/-- A job that creates an instance was there before, no further than now, or is
made with its instance. -/
theorem Moved.creation_job (hm : Moved w t what w') (hs : Sound w.store) {j : UUID}
    {job' : JobExecution} (row' : w'.store.jobs.lookup j = some job') (creates : job'.Creates id) :
    (∃ job, w.store.jobs.lookup j = some job ∧ job.Creates id ∧
      (job.status = .success → job'.status = .success)) ∨
    (∃ application slug, what = .changed (.request (.createInstance application slug)) ∧
      id = w.store.nextId ∧ j = w.store.nextId + 1) := by
  have hold : (∃ job, w.store.jobs.lookup j = some job) ∨ (∃ application slug,
      what = .changed (.request (.createInstance application slug)) ∧ id = w.store.nextId ∧
      j = w.store.nextId + 1) := by
    rcases hm.store_cases with h | ⟨now, h⟩ | ⟨r, rfl, h⟩ | ⟨worker, β, tr, a, -, allowed, h⟩
    · exact .inl ⟨job', h ▸ row'⟩
    · exact .inl ⟨job', by simpa [h] using row'⟩
    · rcases h.job_cases row' with hjob | hfiled
      · exact .inl ⟨job', hjob⟩
      · obtain ⟨application, slug, rfl, hj, hid⟩ := hfiled.creation creates.1
        exact .inr ⟨application, slug, rfl, Option.some.inj (creates.2.2.symm.trans hid), hj⟩
    · rcases h.jobs_old row' with ⟨job, hjob, -⟩ | ⟨-, hupdate⟩
      · exact .inl ⟨job, hjob⟩
      · exact absurd (hupdate.symm.trans creates.1) (by decide)
  refine hold.imp_left fun ⟨job, row⟩ => ⟨job, row, ?_, hm.job_settled hs row row'⟩
  obtain ⟨hname, howner⟩ := hm.job_same hs row row'
  rw [JobExecution.lease_owner.mpr creates.2] at howner
  exact ⟨hname.symm.trans creates.1, JobExecution.lease_owner.mp howner.symm⟩

/-- An instance keeps its deletion, and its creation until it is deleted. -/
theorem Moved.instance_forward (hm : Moved w t what w') (hs : Sound w.store)
    (h : w.store.Forward) (row : w.store.instances.lookup id = some i)
    (row' : w'.store.instances.lookup id = some i') :
    (i.action = .deleting → i'.action = .deleting ∧ i'.jobId = i.jobId ∧ i'.status ≠ .success) ∧
    (i.action = .creating → i.status ≠ .success → (i'.action = .creating ∧ i'.jobId = i.jobId) ∨
      (what = .changed (.request (.requestInstanceDeletion id)) ∧ i.status = .error ∧
        i'.action = .deleting)) := by
  rcases hm.instance_cases hs row' with ⟨-, -, -, hid, -⟩ | ⟨i₀, hi₀, hmoved⟩
  · exact absurd hid (Nat.ne_of_lt (hs.grounded.instances id i row))
  · obtain rfl : i = i₀ := Option.some.inj (row.symm.trans hi₀)
    rcases hmoved with hworked | ⟨r, rfl, hrestart⟩
    · refine ⟨fun hdel => hworked.deletion hdel (h.deleting id i row hdel), fun hcreate _ => .inl ?_⟩
      rcases hworked.keeps with ⟨haction, hjob⟩ | hup | hup
      · exact ⟨haction.trans hcreate, hjob⟩
      · rw [hcreate] at hup
        cases hup
      · rw [hcreate] at hup
        cases hup
    · generalize hl : i'.toLifecycle = l at hrestart
      cases hrestart with
      | deletion alive settled entry =>
          refine ⟨fun hdel => absurd hdel alive, fun _ hactive => .inr ⟨rfl, ?_, rfl⟩⟩
          exact (settled.resolve_left hactive).2
      | power _ _ _ _ settled =>
          refine ⟨fun hdel => ?_, fun hcreate hactive => ?_⟩
          · rcases settled with hst | ⟨-, -, halive⟩
            · exact absurd hst (h.deleting id i row hdel)
            · exact absurd hdel halive
          · rcases settled with hst | ⟨-, hcr, -⟩
            · exact absurd hst hactive
            · exact absurd hcreate hcr

theorem Moved.forward (hm : Moved w t what w') (hs : Sound w.store) (h : w.store.Forward) :
    w'.store.Forward where
  deleting := by
    intro id i' row' hdel
    rcases hm.instance_cases hs row' with ⟨_, _, -, -, rfl⟩ | ⟨i, row, hworked | ⟨r, -, hrestart⟩⟩
    · cases hdel
    · have hdel₀ := hworked.deletes hdel
      exact (hworked.deletion hdel₀ (h.deleting id i row hdel₀)).2.2
    · generalize i'.toLifecycle = l at hrestart hdel ⊢
      cases hrestart <;> simp
  known := by
    intro j job' id row' creates
    rcases hm.creation_job hs row' creates with ⟨job, row, hcr, -⟩ | ⟨-, -, -, rfl, rfl⟩
    · exact Nat.lt_of_lt_of_le (h.known j job id row hcr) (hm.nextId_le hs)
    · have hused := (hm.sound hs).ledger.known (w.store.nextId + 1) job'.lease
        (by simp [Store.ledger, row'])
      exact Nat.lt_of_succ_lt hused
  creation := by
    intro id i' j job' row' hjob' creates hactive
    rcases hm.creation_job hs hjob' creates with ⟨job, hjob, hcr, hstays⟩ |
        ⟨-, -, -, rfl, rfl⟩
    · have hunfinished : job.status ≠ .success := fun hst => hactive (hstays hst)
      rcases hm.instance_cases hs row' with ⟨_, _, -, hid, -⟩ | ⟨i, row, -⟩
      · exact absurd hid (Nat.ne_of_lt (h.known j job id hjob hcr))
      obtain ⟨hkeeps, hcreates⟩ := hm.instance_forward hs h row row'
      rcases h.creation id i j job row hjob hcr hunfinished with ⟨haction, hcur⟩ | hdel
      · -- The job of the instance has the instance's status.
        have hstatus : i.status ≠ .success := by
          rw [← hs.current_status (Store.lifecycle_instance row) hcur hjob]
          exact hunfinished
        rcases hcreates haction hstatus with ⟨haction', hcur'⟩ | ⟨-, -, hdel'⟩
        · exact .inl ⟨haction', hcur'.trans hcur⟩
        · exact .inr hdel'
      · exact .inr (hkeeps hdel).1
    · rcases hm.instance_cases hs row' with ⟨_, _, -, -, rfl⟩ | ⟨i, row, -⟩
      · exact .inl ⟨rfl, rfl⟩
      · exact absurd (hs.grounded.instances _ i row) (Nat.lt_irrefl _)

end Move
theorem Run.forward {w : World} {t : Trace} (h : Run w t) : w.store.Forward := by
  refine h.induction (motive := fun w _ => w.store.Forward) ?start ?move
  case start => exact Store.Forward.empty
  case move => exact fun w t what w' hrun hm ih => hm.forward hrun.sound ih

/-- The instance lifecycle goes forward in every run. -/
theorem instance_lifecycle_goes_forward (steps : List Step) :
    let s := (run steps).world.store
    -- A deletion stays, under its job, until the row is gone.
    (∀ id i, s.instances.lookup id = some i → i.action = .deleting → ∀ more i',
      (run (steps ++ more)).world.store.instances.lookup id = some i' →
      i'.action = .deleting ∧ i'.jobId = i.jobId) ∧
    -- Until its creation has completed, an instance is being created or deleted.
    (∀ id i j job, s.instances.lookup id = some i → s.jobs.lookup j = some job →
      job.Creates id → job.status ≠ .success →
      (i.action = .creating ∧ i.jobId = some j) ∨ i.action = .deleting) ∧
    -- Only a deletion requested after it failed replaces a creation.
    (∀ id i j job, s.instances.lookup id = some i → s.jobs.lookup j = some job →
      job.Creates id → job.status ≠ .success → i.jobId = some j → ∀ l i',
      (run (steps ++ [l])).world.store.instances.lookup id = some i' → i'.jobId ≠ some j →
      l = .change (.request (.requestInstanceDeletion id)) ∧ i.action = .creating ∧
        i.status = .error ∧ i'.action = .deleting) ∧
    -- No other step overwrites a creation or a deletion that is not settled.
    (∀ id i, s.instances.lookup id = some i → (i.action = .creating ∨ i.action = .deleting) →
      i.status ≠ .success → ∀ l i', l ≠ .change (.request (.requestInstanceDeletion id)) →
      (run (steps ++ [l])).world.store.instances.lookup id = some i' →
      i'.action = i.action ∧ i'.jobId = i.jobId) := by
  intro s
  have hrun := run_reaches steps
  have hf : s.Forward := hrun.forward
  refine ⟨fun id i row hdel more i' row' => ?_, hf.creation, ?_, ?_⟩
  · refine run_instances
      (R := fun i i' => i.action = .deleting → i'.action = .deleting ∧ i'.jobId = i.jobId)
      (fun _ h => ⟨h, rfl⟩) ?_ ?_ steps more row row' hdel
    · intro i i' i'' h h' hdel
      obtain ⟨hdel', hjob⟩ := h hdel
      obtain ⟨hdel'', hjob'⟩ := h' hdel'
      exact ⟨hdel'', hjob'.trans hjob⟩
    · intro w t what w' hrun hm id i i' row row' hdel
      obtain ⟨haction, hjob, -⟩ := (hm.instance_forward hrun.sound hrun.forward row row').1 hdel
      exact ⟨haction, hjob⟩
  · intro id i j job row hjob creates hactive hcur l i' row' hother
    rcases run_snoc steps l with ⟨hsame, -⟩ | ⟨what, hm, hl, -⟩
    · rw [hsame] at row'
      exact absurd (Option.some.inj (row'.symm.trans row) ▸ hcur) hother
    obtain ⟨hdeletes, hcreates⟩ := hm.instance_forward hrun.sound hf row row'
    have hstatus : i.status ≠ .success := by
      rw [← hrun.sound.current_status (Store.lifecycle_instance row) hcur hjob]
      exact hactive
    rcases hf.creation id i j job row hjob creates hactive with ⟨haction, -⟩ | hdel
    · rcases hcreates haction hstatus with ⟨-, hkept⟩ | ⟨hwhat, herror, hdel⟩
      · exact absurd (hkept.trans hcur) hother
      · subst hwhat
        exact ⟨hl, haction, herror, hdel⟩
    · exact absurd ((hdeletes hdel).2.1.trans hcur) hother
  · intro id i row haction hactive l i' hother row'
    rcases run_snoc steps l with ⟨hsame, -⟩ | ⟨what, hm, hl, -⟩
    · rw [hsame] at row'
      rw [Option.some.inj (row'.symm.trans row)]
      exact ⟨rfl, rfl⟩
    obtain ⟨hdeletes, hcreates⟩ := hm.instance_forward hrun.sound hf row row'
    rcases haction with hcr | hdel
    · rcases hcreates hcr hactive with ⟨hcr', hjob⟩ | ⟨hwhat, -⟩
      · exact ⟨hcr'.trans hcr.symm, hjob⟩
      · subst hwhat
        exact absurd hl hother
    · obtain ⟨hdel', hjob, -⟩ := hdeletes hdel
      exact ⟨hdel'.trans hdel.symm, hjob⟩

end CoderManager
