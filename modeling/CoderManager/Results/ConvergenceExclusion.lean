import CoderManager.Results.WorkspaceReferences

/-!
# One convergence at a time

A template, its assignments and its workspaces are never converged at the same
time. Workers leave settled rows alone, so only requests can start a
convergence, and each of them finds the others settled under the lock of the
template row.
-/
namespace CoderManager
open Tables Leases
namespace Store

/-- No two of a template, an assignment of it and a workspace of it are being
converged, unless the assignment and the workspace belong to different
instances. -/
structure Exclusive (s : Store) : Prop where
  assignments : ∀ id a t, s.assignments.lookup id = some a →
    s.templates.lookup a.templateId = some t → t.status ≠ .success → a.status = .success
  workspaces : ∀ id w t, s.workspaces.lookup id = some w →
    s.templates.lookup w.templateId = some t → t.status ≠ .success → w.status = .success
  pairs : ∀ aid a id w, s.assignments.lookup aid = some a → s.workspaces.lookup id = some w →
    w.templateId = a.templateId → w.instanceId = a.instanceId → a.status ≠ .success →
    w.status = .success

theorem Exclusive.empty : Exclusive Store.empty := by
  constructor <;> intros <;> contradiction

/-- What is being converged in `s'` was being converged in `s` already. -/
structure Unstirred (s s' : Store) : Prop where
  templates : ∀ id t', s'.templates.lookup id = some t' → t'.status ≠ .success →
    ∃ t, s.templates.lookup id = some t ∧ t.status ≠ .success
  assignments : ∀ id a', s'.assignments.lookup id = some a' → a'.status ≠ .success →
    ∃ a, s.assignments.lookup id = some a ∧ a.status ≠ .success ∧ a'.instanceId = a.instanceId ∧
      a'.templateId = a.templateId
  workspaces : ∀ id w', s'.workspaces.lookup id = some w' → w'.status ≠ .success →
    ∃ w, s.workspaces.lookup id = some w ∧ w.status ≠ .success ∧ w'.instanceId = w.instanceId ∧
      w'.templateId = w.templateId

section Unstirred
variable {s s' : Store}

theorem Unstirred.exclusive (h : Unstirred s s') (hs : Exclusive s) : Exclusive s' where
  assignments := by
    intro id a' t' ha' ht' hactive
    by_contra hboth
    obtain ⟨a, ha, hact, -, htemp⟩ := h.assignments id a' ha' hboth
    obtain ⟨t, ht, htact⟩ := h.templates _ t' ht' hactive
    exact hact (hs.assignments id a t ha (htemp ▸ ht) htact)
  workspaces := by
    intro id w' t' hw' ht' hactive
    by_contra hboth
    obtain ⟨w, hw, hact, -, htemp⟩ := h.workspaces id w' hw' hboth
    obtain ⟨t, ht, htact⟩ := h.templates _ t' ht' hactive
    exact hact (hs.workspaces id w t hw (htemp ▸ ht) htact)
  pairs := by
    intro aid a' id w' ha' hw' htemp hinst hactive
    by_contra hboth
    obtain ⟨a, ha, haact, hai, hat⟩ := h.assignments aid a' ha' hactive
    obtain ⟨w, hw, hwact, hwi, hwt⟩ := h.workspaces id w' hw' hboth
    exact hwact (hs.pairs aid a id w ha hw (by rw [← hat, ← hwt, htemp]) (by rw [← hai, ← hwi, hinst])
      haact)

theorem Unstirred.refl (s : Store) : Unstirred s s :=
  ⟨fun _ t ht h => ⟨t, ht, h⟩, fun _ a ha h => ⟨a, ha, h, rfl, rfl⟩,
    fun _ w hw h => ⟨w, hw, h, rfl, rfl⟩⟩

theorem Unstirred.of_eq (templates : s'.templates = s.templates)
    (assignments : s'.assignments = s.assignments) (workspaces : s'.workspaces = s.workspaces) :
    Unstirred s s' := by
  have h := Unstirred.refl s
  exact ⟨templates ▸ h.templates, assignments ▸ h.assignments, workspaces ▸ h.workspaces⟩

theorem Exclusive.of_eq (h : Exclusive s) (templates : s'.templates = s.templates)
    (assignments : s'.assignments = s.assignments) (workspaces : s'.workspaces = s.workspaces) :
    Exclusive s' := (Unstirred.of_eq templates assignments workspaces).exclusive h

theorem Unstirred.rewriteTemplate {id : UUID} {f : Template → Template}
    (templates : s'.templates = s.templates.modify id f)
    (assignments : s'.assignments = s.assignments) (workspaces : s'.workspaces = s.workspaces)
    (same : ∀ t, (f t).status = .success ∨ (f t).status = t.status) : Unstirred s s' := by
  have h := Unstirred.refl s
  refine ⟨fun id' t' ht' hactive => ?_, assignments ▸ h.assignments, workspaces ▸ h.workspaces⟩
  rw [templates] at ht'
  rcases Table.lookup_modify_cases ht' with ⟨rfl, t, ht, rfl⟩ | ⟨-, ht⟩
  · refine ⟨t, ht, fun hsettled => ?_⟩
    rcases same t with h | h
    · exact hactive h
    · exact hactive (h.trans hsettled)
  · exact ⟨t', ht, hactive⟩

theorem unstirred_discardCurrentJob (id : UUID) : Unstirred s (s.discardCurrentJob id) := by
  rcases s.discardCurrentJob_cases id with ⟨h, -⟩ | ⟨t, jobId, -, -, h⟩ <;> rw [h]
  · exact .refl s
  · exact .rewriteTemplate rfl rfl rfl fun _ => .inr rfl

end Unstirred
end Store

open Store in
theorem Committed.unstirred {s s' : Store} {β : Type} {t : Transaction β} {a : β}
    {h : WorkerHistory} (hc : Committed s t a s') (hg : Discipline.transaction h t)
    (hl : Consistent catalogue s.ledger) : Unstirred s s' := by
  have hkept := Narrowed.committed hc
  constructor
  · intro id t' ht' hact
    obtain ⟨t, ht, -⟩ := hkept.templates id t' ht'
    exact ⟨t, ht, hc.active_before hg hl (lifecycle_template ht) (lifecycle_template ht') hact⟩
  · intro id a' ha' hact
    obtain ⟨a, ha, hcols⟩ := hkept.assignments id a' ha'
    obtain ⟨hi, ht⟩ := Prod.mk.inj hcols
    exact ⟨a, ha, hc.active_before hg hl (lifecycle_assignment ha) (lifecycle_assignment ha') hact,
      hi, ht⟩
  · intro id w' hw' hact
    obtain ⟨w, hw, hcols⟩ := hkept.workspaces id w' hw'
    simp only [Prod.mk.injEq] at hcols
    exact ⟨w, hw, hc.active_before hg hl (lifecycle_workspace hw) (lifecycle_workspace hw') hact,
      hcols.1, hcols.2.1⟩

namespace Store
variable {s : Store}

theorem Deployed.settled {templateId instanceId : UUID} (h : s.Deployed templateId instanceId)
    (hs : Referenced s) :
    (∀ t, s.templates.lookup templateId = some t → t.status = .success) ∧
      ∀ id a, s.assignments.lookup id = some a → a.templateId = templateId →
        a.instanceId = instanceId → a.status = .success := by
  obtain ⟨aid, a, t, d, ha, hat, hai, -, hsettled, ht, htsettled, -⟩ := h
  refine ⟨fun t' ht' => ?_, fun id a' ha' hat' hai' => ?_⟩
  · rw [← Option.some.inj (ht.symm.trans ht')]
    exact htsettled
  · obtain rfl := hs.pairs aid id a a' ha ha' (hai.trans hai'.symm) (hat.trans hat'.symm)
    rw [← Option.some.inj (ha.symm.trans ha')]
    exact hsettled

theorem Exclusive.putWorkspace (h : Exclusive s) (hs : Referenced s)
    {workspaces : Table UUID Workspace}
    (others : ∀ id w', workspaces.lookup id = some w' →
      s.Deployed w'.templateId w'.instanceId ∨ w'.status = .success ∨
        ∃ w, s.workspaces.lookup id = some w ∧ w'.templateId = w.templateId ∧
          w'.instanceId = w.instanceId ∧ w'.status = w.status) :
    Exclusive { s with workspaces } where
  assignments := h.assignments
  workspaces := by
    intro id w' t hw' ht hactive
    rcases others id w' hw' with hdep | hsettled | ⟨w, hw, htemp, -, hst⟩
    · exact absurd ((hdep.settled hs).1 t ht) hactive
    · exact hsettled
    · exact hst.trans (h.workspaces id w t hw (htemp ▸ ht) hactive)
  pairs := by
    intro aid a id w' ha hw' htemp hinst hactive
    rcases others id w' hw' with hdep | hsettled | ⟨w, hw, htemp', hinst', hst⟩
    · exact absurd ((hdep.settled hs).2 aid a ha htemp.symm hinst.symm) hactive
    · exact hsettled
    · exact hst.trans (h.pairs aid a id w ha hw (htemp'.symm.trans htemp) (hinst'.symm.trans hinst)
        hactive)

theorem Exclusive.stageWorkspace (h : Exclusive s) (hs : Referenced s) {id : UUID} {w : Workspace}
    (row : s.workspaces.lookup id = some w) (deployed : s.Deployed w.templateId w.instanceId)
    (name : JobName) (action : Action) (step : StepName) :
    Exclusive (s.stageJob name action .workspace id step).2 := by
  have hput : Exclusive { s with workspaces := s.workspaces.modify id fun w => { w with
      toLifecycle := { action, status := .pending, jobId := some s.nextId, step := some step } } } := by
    refine h.putWorkspace hs fun id' w' hw' => ?_
    rcases Table.lookup_modify_cases hw' with ⟨rfl, w₀, hw₀, rfl⟩ | ⟨-, hw⟩
    · obtain rfl : w = w₀ := Option.some.inj (row.symm.trans hw₀)
      exact .inl deployed
    · exact .inr (.inr ⟨w', hw, rfl, rfl, rfl⟩)
  exact hput.of_eq rfl rfl rfl

/-- An assignment whose template and workspaces are settled may be put under
convergence. -/
theorem Exclusive.putAssignment (h : Exclusive s) {assignments : Table UUID TemplateAssignment}
    (others : ∀ id a', assignments.lookup id = some a' →
      (∃ a, s.assignments.lookup id = some a ∧ a'.templateId = a.templateId ∧
        a'.instanceId = a.instanceId ∧ a'.status = a.status) ∨
      ((∀ t, s.templates.lookup a'.templateId = some t → t.status = .success) ∧
        ∀ wid w, s.workspaces.lookup wid = some w → w.templateId = a'.templateId →
          w.instanceId = a'.instanceId → w.status = .success)) :
    Exclusive { s with assignments } where
  assignments := by
    intro id a' t ha' ht hactive
    rcases others id a' ha' with ⟨a, ha, htemp, -, hst⟩ | ⟨hsettled, -⟩
    · exact hst.trans (h.assignments id a t ha (htemp ▸ ht) hactive)
    · exact absurd (hsettled t ht) hactive
  workspaces := h.workspaces
  pairs := by
    intro aid a' id w ha' hw htemp hinst hactive
    rcases others aid a' ha' with ⟨a, ha, htemp', hinst', hst⟩ | ⟨-, hidle⟩
    · exact h.pairs aid a id w ha hw (htemp.trans htemp') (hinst.trans hinst') (hst ▸ hactive)
    · exact hidle id w hw htemp hinst

theorem Exclusive.stageTemplate (h : Exclusive s) {id : UUID}
    (calm : ∀ aid a, s.assignments.lookup aid = some a → a.templateId = id → a.status = .success)
    (quiet : s.Quiet id) (name : JobName) (action : Action) (step : StepName) :
    Exclusive (s.stageJob name action .template id step).2 where
  assignments := by
    intro aid a t' ha ht' hactive
    rcases Table.lookup_modify_cases ht' with ⟨hid, -⟩ | ⟨-, ht⟩
    · exact calm aid a ha hid
    · exact h.assignments aid a t' ha ht hactive
  workspaces := by
    intro wid w t' hw ht' hactive
    rcases Table.lookup_modify_cases ht' with ⟨hid, -⟩ | ⟨-, ht⟩
    · exact quiet wid w hw hid
    · exact h.workspaces wid w t' hw ht hactive
  pairs := h.pairs

end Store
open Store in
theorem Accepted.exclusive {s s' : Store} {r : Request} (h : Accepted s r s') (hr : Referenced s)
    (hs : Exclusive s) : Exclusive s' := by
  cases h with
  | createInstance | requestInstanceDeletion | requestSync | requestStart | requestStop
  | createKubernetesProvider | createDatabase | updateDatabase | deleteDatabase
  | requestDatabaseSync | createImage | deleteImage | createUserParameter | updateParameter
  | deleteUserParameter => exact hs.of_eq rfl rfl rfl
  | createMember | updateMemberRole | requestMemberDeletion =>
      unfold requestInstanceUpdate
      split <;> exact hs.of_eq rfl rfl rfl
  | keepMemberRole | keepTemplate | keepAssignment | keepAssignmentDeletion | keepWorkspace => exact hs
  | @createTemplate name payload t _ row =>
      refine Unstirred.exclusive ?_ hs
      refine { Unstirred.refl s with templates := fun id t' ht' hactive => ?_ }
      rcases Table.lookup_insert_cases ht' with ⟨-, rfl⟩ | ⟨-, ht⟩
      · rw [row] at hactive
        exact absurd rfl hactive
      · exact ⟨t', ht, hactive⟩
  | @updateTemplate id payload t calm quiet =>
      refine Unstirred.exclusive ?_ ((unstirred_discardCurrentJob id).exclusive hs)
      exact .rewriteTemplate rfl rfl rfl fun _ => .inl rfl
  | @deleteTemplate id =>
      refine Unstirred.exclusive ?_ ((unstirred_discardCurrentJob id).exclusive hs)
      refine { Unstirred.refl _ with templates := fun id' t' ht' hactive => ?_ }
      exact ⟨t', (Table.lookup_erase_some.mp ht').2, hactive⟩
  | @requestTemplateSync id t calm quiet =>
      refine ((unstirred_discardCurrentJob id).exclusive hs).stageTemplate ?_ ?_ _ _ _
      · simpa using calm.2.2
      · simpa [Quiet] using quiet
  | createSystemParameter | updateSystemValue | deleteSystemParameter =>
      refine Unstirred.exclusive ?_ hs
      exact .rewriteTemplate rfl rfl rfl fun _ => .inr rfl
  | @putAssignment id templateId assignable absent =>
      have hput : Exclusive { s with assignments := s.assignments.insert s.nextId {
          action := .creating, status := .pending, jobId := some (s.nextId + 1)
          step := some .templateAssignmentCreateStep01, templateId, instanceId := id } } := by
        refine hs.putAssignment fun aid a' ha' => ?_
        rcases Table.lookup_insert_cases ha' with ⟨-, rfl⟩ | ⟨-, ha⟩
        · obtain ⟨i, t, -, ht, -, -, htsettled⟩ := assignable
          refine .inr ⟨fun t' ht' => ?_, fun wid w hw hwt hwi => ?_⟩
          · rw [← Option.some.inj (ht.symm.trans ht')]
            exact htsettled
          · -- A workspace of the pair would have an assignment already.
            obtain ⟨aid', a', -, ha', hat, hai, -⟩ := (hr.workspaces wid w hw).deployed
            have hno := Table.find?_eq_none.mp absent aid' a' ha'
            simp [hat, hai, hwt, hwi] at hno
        · exact .inl ⟨a', ha, rfl, rfl, rfl⟩
      exact hput.of_eq rfl rfl rfl
  | @requestAssignmentDeletion id templateId assignmentId a assignable row own source _ _ idle =>
      have hput : Exclusive { s with assignments := s.assignments.modify assignmentId fun a =>
          { a with toLifecycle := {
            action := .deleting, status := .pending, jobId := some s.nextId
            step := some .templateAssignmentDeleteStep01 } } } := by
        refine hs.putAssignment fun aid a' ha' => ?_
        rcases Table.lookup_modify_cases ha' with ⟨rfl, a₀, ha₀, rfl⟩ | ⟨-, ha⟩
        · obtain rfl : a = a₀ := Option.some.inj (row.symm.trans ha₀)
          obtain ⟨i, t, -, ht, -, -, htsettled⟩ := assignable
          refine .inr ⟨fun t' ht' => ?_, fun wid w hw hwt hwi => ?_⟩
          · have ht'' : s.templates.lookup templateId = some t' := source ▸ ht'
            rw [← Option.some.inj (ht.symm.trans ht'')]
            exact htsettled
          · exact idle wid w hw (hwi.trans own) (hwt.trans source)
        · exact .inl ⟨a', ha, rfl, rfl, rfl⟩
      exact hput.of_eq rfl rfl rfl
  | @createWorkspace id templateId memberId payload i m t parameters _ _ _ _ _ _ deployed =>
      have hput : Exclusive { s with workspaces := s.workspaces.insert s.nextId {
          action := .creating, status := .pending, jobId := some (s.nextId + 1)
          step := some .workspaceCreateStep01, name := payload.name, instanceId := id, templateId
          memberId, imageId := payload.imageId, modules := payload.modules, parameters
          parametersRevision := 0, appliedParametersRevision := none, coderWorkspaceId := none
          coderWorkspaceBuildId := none } } := by
        refine hs.putWorkspace hr fun wid w' hw' => ?_
        rcases Table.lookup_insert_cases hw' with ⟨-, rfl⟩ | ⟨-, hw⟩
        · exact .inl deployed
        · exact .inr (.inr ⟨w', hw, rfl, rfl, rfl⟩)
      exact hput.of_eq rfl rfl rfl
  | @updateWorkspace id payload w i t workspaces f row _ _ _ changed same deployed =>
      subst changed
      have hput : Exclusive { s with workspaces := (s.workspaces.modify id f).modify id fun w =>
          { w with toLifecycle := {
            action := .updating, status := .pending, jobId := some s.nextId
            step := some .workspaceUpdateStep01 } } } := by
        refine hs.putWorkspace hr fun wid w' hw' => ?_
        rcases Table.lookup_modify_cases hw' with ⟨rfl, w₁, hw₁, rfl⟩ | ⟨hne, hw₁⟩
        · rcases Table.lookup_modify_cases hw₁ with ⟨-, w₀, hw₀, rfl⟩ | ⟨hne, -⟩
          · obtain rfl : w = w₀ := Option.some.inj (row.symm.trans hw₀)
            obtain ⟨-, hinst, htemp, -⟩ := same w
            refine .inl ?_
            simp only [htemp, hinst]
            exact deployed
          · exact absurd rfl hne
        · rcases Table.lookup_modify_cases hw₁ with ⟨rfl, -⟩ | ⟨-, hw⟩
          · exact absurd rfl hne
          · exact .inr (.inr ⟨w', hw, rfl, rfl, rfl⟩)
      exact hput.of_eq rfl rfl rfl
  | requestWorkspaceDeletion row _ _ _ deployed => exact hs.stageWorkspace hr row deployed _ _ _

/-- Convergence is exclusive in every run. -/
theorem Run.exclusive {w : World} {t : Trace} (h : Run w t) : w.store.Exclusive := by
  refine h.induction (motive := fun w _ => w.store.Exclusive) ?start ?move
  case start => exact Store.Exclusive.empty
  case move =>
    intro w t what w' hrun hm ih
    rcases hm.store_cases with h | ⟨now, h⟩ | ⟨r, -, h⟩ | ⟨worker, β, tr, a, -, allowed, h⟩
    · exact h ▸ ih
    · exact h ▸ ih.of_eq rfl rfl rfl
    · exact h.exclusive hrun.referenced ih
    · exact (h.unstirred allowed hrun.sound.ledger).exclusive ih

/-- A template, its assignments and its workspaces are converged one at a time,
in every run. -/
theorem convergence_is_exclusive (steps : List Step) :
    let s := (run steps).world.store
    (∀ id t, s.templates.lookup id = some t →
      (t.status = .pending ∨ t.status = .running ∨ t.status = .error) →
      (∀ aid a, s.assignments.lookup aid = some a → a.templateId = id →
        ¬(a.status = .pending ∨ a.status = .running ∨ a.status = .error)) ∧
      ∀ wid w, s.workspaces.lookup wid = some w → w.templateId = id →
        ¬(w.status = .pending ∨ w.status = .running ∨ w.status = .error)) ∧
    ∀ aid a, s.assignments.lookup aid = some a →
      (a.status = .pending ∨ a.status = .running ∨ a.status = .error) →
      ∀ wid w, s.workspaces.lookup wid = some w → w.templateId = a.templateId →
        w.instanceId = a.instanceId →
        ¬(w.status = .pending ∨ w.status = .running ∨ w.status = .error) := by
  intro s
  have hs : s.Exclusive := (run_reaches steps).exclusive
  have hactive : ∀ status : Status,
      (status = .pending ∨ status = .running ∨ status = .error) ↔ status ≠ .success := by
    intro status
    cases status <;> decide
  simp only [hactive, not_not]
  refine ⟨fun id t ht hact => ⟨fun aid a ha hid => ?_, fun wid w hw hid => ?_⟩, ?_⟩
  · exact hs.assignments aid a t ha (hid ▸ ht) hact
  · exact hs.workspaces wid w t hw (hid ▸ ht) hact
  · exact fun aid a ha hact wid w hw htemp hinst => hs.pairs aid a wid w ha hw htemp hinst hact

end CoderManager
