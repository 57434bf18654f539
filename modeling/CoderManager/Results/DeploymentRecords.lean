import CoderManager.Refinement.Ownership
import CoderManager.Results.WorkspaceReferences

/-!
# The record of a deployment

What the deployment of an assignment records is written by the publications to the
assignment and by nothing else of the manager: beside them, over any stretch of a
run, the assignment stays with its instance and the record goes only with it.
-/
namespace CoderManager
open Programs Tables

/-- The transactions that write what the deployment of this assignment records. -/
def Transaction.records (assignmentId : UUID) : {β : Type} → Transaction β → Bool
  | _, .prepareDeployment _ id _ _ _ | _, .storeTemplateRemoteIds _ id _ _ _ => id == assignmentId
  | _, _ => false

/-- The transactions that write deployments. -/
def Transaction.writesDeployments : {β : Type} → Transaction β → Bool
  | _, .prepareDeployment _ _ _ _ _ | _, .storeTemplateRemoteIds _ _ _ _ _
  | _, .finishDeployment _ _ _ _ _ | _, .removeLocalAssignment _ _
  | _, .removeLocalConfiguration _ => true
  | _, _ => false

/-- The move wrote what the deployment of this assignment records. -/
def recording (assignmentId : UUID) : WhatHappened → Bool
  | .called _ ⟨.transaction t, .ok _⟩ => t.records assignmentId
  | _ => false

section Deployments
variable {s s' : Store}

theorem Store.deployments_requestInstanceUpdate (id : UUID) (i : Instance) :
    (s.requestInstanceUpdate id i).deployments = s.deployments := by
  unfold Store.requestInstanceUpdate
  split
  · rfl
  · exact Store.deployments_stageJob _ _ _ _ _ _

/-- No request writes a deployment. -/
theorem Accepted.deployments {r : Request} (h : Accepted s r s') :
    s'.deployments = s.deployments := by
  cases h with
  | requestInstanceDeletion | requestStart | requestStop | requestSync | createKubernetesProvider
  | updateWorkspace | requestAssignmentDeletion | requestWorkspaceDeletion =>
      exact Store.deployments_stageJob _ _ _ _ _ _
  | createMember | updateMemberRole | requestMemberDeletion =>
      exact Store.deployments_requestInstanceUpdate _ _
  | updateTemplate | deleteTemplate => exact Store.deployments_discardCurrentJob _ _
  | requestTemplateSync =>
      exact (Store.deployments_stageJob _ _ _ _ _ _).trans (Store.deployments_discardCurrentJob _ _)
  | _ => rfl

theorem Mutated.deployments {job : JobExecution} {m : Mutation} (h : Mutated s job m s') :
    s'.deployments = s.deployments := by
  cases h with
  | markCreated => exact Store.deployments_modifyLifecycle _ _ _ _
  | _ => rfl

/-- The transactions beside those of a publication and of a removal write no
deployment. -/
theorem Committed.deployments {β : Type} {tr : Transaction β} {answer : β}
    (h : Committed s tr answer s') (others : tr.writesDeployments = false) :
    s'.deployments = s.deployments := by
  cases h with
  | claimExecution | retryReclaimed => simp [Store.modifyJob]
  | advanceExecution _ mutated | completeDeletion _ mutated =>
      simpa [Store.modifyJob] using mutated.deployments
  | completeExecution _ mutated =>
      simpa [Store.settleExecution, Store.modifyJob] using mutated.deployments
  | deferExecution _ mutated | failExecution _ mutated =>
      simpa [Store.releaseExecution, Store.modifyJob] using mutated.deployments
  | finalizeUpdate _ _ final =>
      simp [final, Store.settleExecution, Store.modifyJob, Store.finalizeMembers]
  | finalizeAgain _ _ final =>
      simp [final, Store.settleExecution, Store.modifyJob, Store.finalizeMembers]
  | _ => first | rfl | cases others

end Deployments

namespace PublicationTarget
variable {σ : Type} {A : PublicationTarget σ} {s s' : Store}

theorem KeepsRecord.trans {s'' : Store} (h : A.KeepsRecord s s') (h' : A.KeepsRecord s' s'') :
    A.KeepsRecord s s'' where
  recorded := by
    intro d hd
    obtain ⟨d₁, hd₁, hid, hversion, hcommit, hrevision⟩ := h'.recorded d hd
    obtain ⟨d₀, hd₀, hid₀, hversion₀, hcommit₀, hrevision₀⟩ := h.recorded d₁ hd₁
    exact ⟨d₀, hd₀, hid.trans hid₀, hversion.trans hversion₀, hcommit.trans hcommit₀,
      hrevision.trans hrevision₀⟩
  kept := by
    intro a ha
    obtain ⟨a₁, ha₁, hsame, hrow⟩ := h'.kept a ha
    obtain ⟨a₀, ha₀, hsame₀, hrow₀⟩ := h.kept a₁ ha₁
    exact ⟨a₀, ha₀, hsame.trans hsame₀, fun hsome => hrow (hrow₀ hsome)⟩

/-- An assignment that is there has long been there, as long as its identifier was
drawn before. -/
theorem KeepsRecord.of_grow (grow : s.AssignmentsGrow s') (drawn : A.assignmentId < s.nextId)
    (recorded : ∀ d, s'.deployments.lookup A.assignmentId = some d →
      s.deployments.lookup A.assignmentId = some d)
    (stays : ∀ a, s'.assignments.lookup A.assignmentId = some a →
      (s.deployments.lookup A.assignmentId).isSome = true →
        (s'.deployments.lookup A.assignmentId).isSome = true) : A.KeepsRecord s s' where
  recorded := fun d hd => ⟨d, recorded d hd, rfl, rfl, rfl, rfl⟩
  kept := by
    intro a ha
    rcases grow.2 A.assignmentId a ha with hnew | ⟨a₀, ha₀, hsame, -⟩
    · exact absurd drawn (Nat.not_lt.mpr hnew)
    · exact ⟨a₀, ha₀, hsame, stays a ha⟩

theorem KeepsRecord.of_deployment (grow : s.AssignmentsGrow s') (drawn : A.assignmentId < s.nextId)
    (same : s'.deployments.lookup A.assignmentId = s.deployments.lookup A.assignmentId) :
    A.KeepsRecord s s' :=
  .of_grow grow drawn (fun _ hd => same ▸ hd) (fun _ _ hsome => same ▸ hsome)

theorem KeepsRecord.committed {β : Type} {tr : Transaction β} {answer : β}
    (h : Committed s tr answer s') (others : tr.records A.assignmentId = false)
    (grow : s.AssignmentsGrow s') (drawn : A.assignmentId < s.nextId) : A.KeepsRecord s s' := by
  have hrest := h.deployments
  cases h with
  | prepareDeployment | storeTemplateRemoteIds =>
      have hne : A.assignmentId ≠ _ := fun h => beq_eq_false_iff_ne.mp others h.symm
      refine .of_deployment grow drawn ?_
      first | exact Table.lookup_insert_ne _ _ hne | exact Table.lookup_modify_ne _ _ hne
  | @finishDeployment _ id _ _ success =>
      refine .modify id fun d => ?_
      cases success <;> exact ⟨rfl, rfl, rfl, rfl⟩
  | removeLocalAssignment => exact .erase _
  | removeLocalConfiguration =>
      refine .of_grow grow drawn (fun d hd => ?_) fun a ha hsome => ?_
      · exact (Table.lookup_deleteWhere_some.mp hd).1
      · obtain ⟨ha₀, hother⟩ := Table.lookup_deleteWhere_some.mp ha
        obtain ⟨d, hd⟩ := Option.isSome_iff_exists.mp hsome
        refine Option.isSome_iff_exists.mpr ⟨d, Table.lookup_deleteWhere_some.mpr ⟨hd, ?_⟩⟩
        exact (congrArg (Option.any _) ha₀).trans hother
  | removeStale | deploymentApplied | deploymentMissing | removeAssignmentStale => exact .refl s
  | _ => exact .of_deployment grow drawn (by rw [hrest rfl])

/-- One move of the manager that is no publication to the assignment. -/
theorem KeepsRecord.moved {w w' : World} {t : Trace} {what : WhatHappened} (hm : Moved w t what w')
    (others : recording A.assignmentId what = false) (drawn : A.assignmentId < w.store.nextId) :
    A.KeepsRecord w.store w'.store := by
  have hgrow := hm.assignments_grow
  rcases hm.store_cases with h | ⟨now, h⟩ | ⟨r, -, h⟩ | ⟨worker, β, tr, a, rfl, -, h⟩
  · exact h ▸ .refl _
  · exact h ▸ .of_eq rfl rfl
  · exact .of_deployment hgrow drawn (by rw [h.deployments])
  · exact .committed h others hgrow drawn

/-- Over a stretch of a run without publications to the assignment, its record is
kept. -/
theorem record_is_kept (A : PublicationTarget σ) {w w' : World} {what : WhatHappened}
    {later t : Trace} (h : Run w' (later ++ ⟨w, what⟩ :: t))
    (others : ∀ e ∈ later ++ [⟨w, what⟩], recording A.assignmentId e.what = false)
    (drawn : A.assignmentId < w.store.nextId) : A.KeepsRecord w.store w'.store := by
  refine (h.induction (motive := fun w' t' => ∀ later, t' = later ++ ⟨w, what⟩ :: t →
    (∀ e ∈ later ++ [⟨w, what⟩], recording A.assignmentId e.what = false) →
      A.assignmentId < w'.store.nextId ∧ A.KeepsRecord w.store w'.store) ?start ?move later rfl
        others).2
  case start =>
    intro later hlater
    exact absurd hlater.symm (by simp)
  case move =>
    intro v tv whatv v' hrun hm ih later hlater others
    have hnext := hm.assignments_grow.1
    cases later with
    | nil =>
        obtain ⟨rfl, rfl⟩ := Entry.mk.inj (List.cons.inj hlater).1
        have hthis := others _ (List.mem_singleton_self _)
        exact ⟨Nat.lt_of_lt_of_le drawn hnext, .moved hm hthis drawn⟩
    | cons e later =>
        obtain ⟨rfl, rfl⟩ := List.cons.inj hlater
        obtain ⟨hdrawn, hkept⟩ := ih later rfl fun e he => others e (List.mem_cons_of_mem _ he)
        have hthis := others _ List.mem_cons_self
        exact ⟨Nat.lt_of_lt_of_le hdrawn hnext, hkept.trans (.moved hm hthis hdrawn)⟩

end PublicationTarget
end CoderManager
