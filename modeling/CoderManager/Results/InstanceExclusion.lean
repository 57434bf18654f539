import CoderManager.Refinement.Lifecycles

/-!
# Instance jobs and template convergence

Every request that starts an instance job looks for assignments that have not
converged, except the upload of a Kubernetes provider. A run keeps the two
apart exactly while no upload meets such an assignment.
-/
namespace CoderManager
open Tables Leases
namespace Store

/-- An instance with an assignment that has not converged is itself settled. -/
def InstancesApart (s : Store) : Prop :=
  ∀ aid a i, s.assignments.lookup aid = some a → a.status ≠ .success →
    s.instances.lookup a.instanceId = some i → i.status = .success

theorem InstancesApart.empty : InstancesApart Store.empty := by
  intro aid a i ha
  contradiction

section Apart
variable {s s' : Store}

theorem InstancesApart.of_eq (h : InstancesApart s) (instances : s'.instances = s.instances)
    (assignments : s'.assignments = s.assignments) : InstancesApart s' := by
  unfold InstancesApart
  rw [instances, assignments]
  exact h

theorem InstancesApart.stageInstance (h : InstancesApart s) {id : UUID}
    (instances : s'.instances = s.instances) (assignments : s'.assignments = s.assignments)
    (unassigned : ∀ aid a, s.assignments.lookup aid = some a → a.instanceId = id →
      a.status = .success) (name : JobName) (action : Action) (step : StepName) :
    InstancesApart (s'.stageJob name action .instance id step).2 := by
  intro aid a i ha hactive hi
  have ha' : s.assignments.lookup aid = some a := assignments ▸ ha
  rcases Table.lookup_modify_cases hi with ⟨hid, -⟩ | ⟨-, hi⟩
  · exact absurd (unassigned aid a ha' hid) hactive
  · exact h aid a i ha' hactive (instances ▸ hi)

theorem Unassigned.settled {id : UUID} (h : s.Unassigned id) (hg : Grounded s) {aid : UUID}
    {a : TemplateAssignment} (row : s.assignments.lookup aid = some a) (own : a.instanceId = id) :
    a.status = .success := by
  obtain ⟨-, -, t, ht⟩ := hg.assignments aid a row
  exact (h aid a t row own ht).1

theorem InstancesApart.requestInstanceUpdate (h : InstancesApart s) {id : UUID} {i : Instance}
    (instances : s'.instances = s.instances) (assignments : s'.assignments = s.assignments)
    (unassigned : ∀ aid a, s.assignments.lookup aid = some a → a.instanceId = id →
      a.status = .success) : InstancesApart (s'.requestInstanceUpdate id i) := by
  unfold Store.requestInstanceUpdate
  split
  · exact h.of_eq instances assignments
  · exact h.stageInstance instances assignments unassigned _ _ _

end Apart
end Store

def UploadFree (s : Store) : Request → Prop
  | .createKubernetesProvider id kubeconfig =>
      ∀ s', (Request.createKubernetesProvider id kubeconfig).handle s = .ok s' →
        ∀ aid a, s.assignments.lookup aid = some a → a.instanceId = id →
          ¬(a.status = .pending ∨ a.status = .running ∨ a.status = .error)
  | _ => True

theorem status_active_iff (status : Status) :
    (status = .pending ∨ status = .running ∨ status = .error) ↔ status ≠ .success := by
  cases status <;> decide

open Store in
theorem Accepted.instancesApart {s s' : Store} {r : Request} (h : Accepted s r s')
    (hg : Grounded s)
    (free : ∀ id kubeconfig, r = .createKubernetesProvider id kubeconfig →
      ∀ aid a, s.assignments.lookup aid = some a → a.instanceId = id → a.status = .success)
    (hs : InstancesApart s) : InstancesApart s' := by
  cases h with
  | createInstance =>
      intro aid a i ha hactive hi
      rcases Table.lookup_insert_cases hi with ⟨hid, -⟩ | ⟨-, hi⟩
      · -- No assignment refers to an instance that is new.
        obtain ⟨-, ⟨i', hi'⟩, -⟩ := hg.assignments aid a ha
        exact absurd hid (Nat.ne_of_lt (hg.instances _ i' hi'))
      · exact hs aid a i ha hactive hi
  | requestInstanceDeletion _ unassigned =>
      exact hs.stageInstance rfl rfl (fun _ _ ha own => unassigned.settled hg ha own) _ _ _
  | requestSync idle | requestStart idle | requestStop idle =>
      refine hs.stageInstance ?_ ?_ (fun _ _ ha own => idle.2.1.settled hg ha own) _ _ _ <;> rfl
  | @createKubernetesProvider id kubeconfig =>
      refine hs.stageInstance ?_ ?_ (free id kubeconfig rfl) _ _ _ <;> rfl
  | createDatabase | updateDatabase | deleteDatabase | requestDatabaseSync | keepMemberRole
  | createTemplate | keepTemplate | createImage | deleteImage | createUserParameter
  | createSystemParameter | updateParameter | updateSystemValue | deleteUserParameter
  | deleteSystemParameter | keepAssignment | keepAssignmentDeletion | createWorkspace
  | updateWorkspace | keepWorkspace | requestWorkspaceDeletion => exact hs.of_eq rfl rfl
  | createMember available | updateMemberRole available | requestMemberDeletion available =>
      exact hs.requestInstanceUpdate rfl rfl fun _ _ ha own => available.2.1.settled hg ha own
  | updateTemplate | deleteTemplate | requestTemplateSync =>
      exact hs.of_eq (by simp [stageJob, modifyLifecycle, addJobExecution, drawId])
        (by simp [stageJob, modifyLifecycle, addJobExecution, drawId])
  | @putAssignment id templateId assignable =>
      intro aid a i ha hactive hi
      rcases Table.lookup_insert_cases ha with ⟨-, rfl⟩ | ⟨-, ha⟩
      · obtain ⟨i', t, hi', -, -, hsettled, -⟩ := assignable
        rw [← Option.some.inj (hi'.symm.trans hi)]
        exact hsettled
      · exact hs aid a i ha hactive hi
  | @requestAssignmentDeletion id templateId assignmentId a₀ assignable row own =>
      intro aid a i ha hactive hi
      rcases Table.lookup_modify_cases ha with ⟨rfl, a', ha', rfl⟩ | ⟨-, ha⟩
      · obtain ⟨i', t, hi', -, -, hsettled, -⟩ := assignable
        obtain rfl : a₀ = a' := Option.some.inj (row.symm.trans ha')
        have hi'' : s.instances.lookup id = some i := own ▸ hi
        rw [← Option.some.inj (hi'.symm.trans hi'')]
        exact hsettled
      · exact hs aid a i ha hactive hi

open Store in
theorem Committed.instancesApart {s s' : Store} {β : Type} {t : Transaction β} {a : β}
    {h : WorkerHistory} (hc : Committed s t a s') (hg : Discipline.transaction h t)
    (hl : Consistent catalogue s.ledger) (hs : InstancesApart s) : InstancesApart s' := by
  intro aid a' i' ha' hactive hi'
  by_contra hboth
  obtain ⟨a, ha, hcols⟩ := (Narrowed.committed hc).assignments aid a' ha'
  obtain ⟨i, hi, -⟩ := (Narrowed.committed hc).instances _ i' hi'
  have haact := hc.active_before hg hl (lifecycle_assignment ha) (lifecycle_assignment ha') hactive
  have hiact := hc.active_before hg hl (lifecycle_instance hi) (lifecycle_instance hi') hboth
  exact hiact (hs aid a i ha haact ((Prod.mk.inj hcols).1 ▸ hi))

theorem Store.createKubernetesProvider_pending {s s' : Store} {id : UUID} {kubeconfig : String}
    (h : (Request.createKubernetesProvider id kubeconfig).handle s = .ok s') :
    ∃ i, s'.instances.lookup id = some i ∧ i.status = .pending ∧
      s'.assignments = s.assignments := by
  cases Request.accepted h with
  | createKubernetesProvider row =>
      refine ⟨_, Table.lookup_modify_self _ _ _ |>.trans (by rw [row]; rfl), rfl, rfl⟩

/-- One move keeps instances and assignments apart exactly when no upload meets
an assignment that has not converged. -/
theorem Moved.instancesApart {w w' : World} {t : Trace} {what : WhatHappened}
    (hm : Moved w t what w') (hs : Sound w.store) (h : w.store.InstancesApart) :
    w'.store.InstancesApart ↔ ∀ r, what = .changed (.request r) → UploadFree w.store r := by
  constructor
  · intro h' r hr
    subst hr
    cases r with
    | createKubernetesProvider id kubeconfig =>
        intro s' hs' aid a ha hid
        rw [status_active_iff, not_not]
        by_contra hactive
        obtain ⟨i, hi, hpending, hsame⟩ := Store.createKubernetesProvider_pending hs'
        have hstore : w'.store = s' := by
          rw [hm.reacted]
          simp [World.react, hs']
        have hsettled := h' aid a i (hstore ▸ hsame ▸ ha) hactive (hstore ▸ hid ▸ hi)
        rw [hpending] at hsettled
        cases hsettled
    | _ => trivial
  · intro hfree
    rcases hm.store_cases with h' | ⟨now, h'⟩ | ⟨r, rfl, -⟩ | ⟨worker, β, tr, a, -, allowed, h'⟩
    · exact h' ▸ h
    · exact h' ▸ h.of_eq rfl rfl
    · rw [hm.reacted]
      cases hr : r.handle w.store with
      | error e => simpa [World.react, hr] using h
      | ok s' =>
          have hstore : (w.react (.request r)).store = s' := by simp [World.react, hr]
          rw [hstore]
          refine (Request.accepted hr).instancesApart hs.grounded ?_ h
          rintro id kubeconfig rfl aid a ha hid
          have hidle := hfree _ rfl s' hr aid a ha hid
          rwa [status_active_iff, not_not] at hidle
    · exact h'.instancesApart allowed hs.ledger h

/-- A run keeps instance jobs and template convergence apart in every state it
goes through exactly while no upload is accepted for an instance with an
assignment that has not converged. -/
theorem instances_apart_iff (steps : List Step) :
    Throughout (fun s => ∀ aid a i, s.assignments.lookup aid = some a →
        (a.status = .pending ∨ a.status = .running ∨ a.status = .error) →
        s.instances.lookup a.instanceId = some i → i.status = .success)
      (run steps).world (run steps).trace ↔
    ∀ e ∈ (run steps).trace, ∀ r, e.what = .changed (.request r) → UploadFree e.before.store r := by
  simp only [status_active_iff]
  exact (run_reaches steps).throughout_iff Store.InstancesApart.empty
    fun w t what w' hrun hm h => hm.instancesApart hrun.sound h

/-- Template 3 is assigned to instance 1, and the instance's provider uploaded
while assignment 4 waits. -/
def uploadDuringAssignment : List Step :=
  provisioning ++ [
    requesting (.createTemplate "template" ⟨"Template", "git", "path", "main", []⟩),
    requesting (.putAssignment 1 3), requesting (.createKubernetesProvider 1 "kubeconfig")]

theorem upload_meets_assignment :
    ¬∀ steps aid a i, (run steps).world.store.assignments.lookup aid = some a →
      (a.status = .pending ∨ a.status = .running ∨ a.status = .error) →
      (run steps).world.store.instances.lookup a.instanceId = some i → i.status = .success := by
  intro h
  have hassigned : ((run uploadDuringAssignment).world.store.assignments.lookup 4).map
      (fun a => (a.status, a.instanceId)) = some (.pending, 1) := by decide +kernel
  have hupdating : ((run uploadDuringAssignment).world.store.instances.lookup 1).map
      (fun i => i.status) = some .pending := by decide +kernel
  obtain ⟨a, ha, hcols⟩ := Option.map_eq_some_iff.mp hassigned
  obtain ⟨i, hi, hst⟩ := Option.map_eq_some_iff.mp hupdating
  obtain ⟨hpending, hid⟩ := Prod.mk.inj hcols
  have hsettled := h _ 4 a i ha (.inl hpending) (hid ▸ hi)
  rw [hst] at hsettled
  cases hsettled

end CoderManager
