import CoderManager.Refinement.Instances
import CoderManager.Refinement.Workspaces
import CoderManager.Results.AppliedRevisions

/-!
# Workspaces of an instance that is stopped or deleted

The requests that stop or delete an instance look at its assignments and not
at its workspaces, and a workspace is accepted for an instance that was
stopped. As long as neither happens, no workspace is created or updated while
its instance is on its way out.
-/
namespace CoderManager
open Programs Tables Leases
namespace Store
variable {s s' : Store} {id instanceId : UUID}

/-- A workspace of the instance has a creation or an update that has not succeeded. -/
def converging (s : Store) (instanceId : UUID) : Bool :=
  s.workspaces.any fun _ w => w.instanceId == instanceId &&
    (w.action == .creating || w.action == .updating) && w.status != .success

/-- The instance is being stopped or deleted, or it was stopped last. -/
def leaving (s : Store) (instanceId : UUID) : Bool :=
  (s.instances.lookup instanceId).any fun i => i.action == .stopping || i.action == .deleting

/-- No workspace is created or updated in an instance that is on its way out. -/
def WorkspacesApart (s : Store) : Prop :=
  ∀ id, s.leaving id = true → s.converging id = false

theorem converging_eq_true : s.converging instanceId = true ↔
    ∃ id w, s.workspaces.lookup id = some w ∧ w.instanceId = instanceId ∧
      (w.action = .creating ∨ w.action = .updating) ∧ w.status ≠ .success := by
  simp only [converging, Table.any_eq_true, Bool.and_eq_true, Bool.or_eq_true, beq_iff_eq,
    bne_iff_ne, and_assoc]

theorem leaving_eq_true : s.leaving instanceId = true ↔
    ∃ i, s.instances.lookup instanceId = some i ∧ (i.action = .stopping ∨ i.action = .deleting) := by
  simp only [leaving, Option.any_eq_true, Bool.or_eq_true, beq_iff_eq]

theorem converging_congr (same : s'.workspaces = s.workspaces) :
    s'.converging id = s.converging id := by
  unfold converging
  rw [same]

theorem WorkspacesApart.empty : WorkspacesApart Store.empty := by
  intro id hleaving
  cases hleaving

theorem WorkspacesApart.of_before (h : s.WorkspacesApart)
    (leaving : ∀ id, s'.leaving id = true → s.leaving id = true)
    (converging : ∀ id, s'.converging id = true → s.converging id = true) :
    s'.WorkspacesApart := by
  intro id hleaving
  by_contra hconverging
  rw [Bool.not_eq_false] at hconverging
  cases (h id (leaving id hleaving)).symm.trans (converging id hconverging)

theorem Undisturbed.converging_before (h : s.Undisturbed s') (hs' : s'.converging id = true) :
    s.converging id = true := by
  obtain ⟨wid, w', hw', hown, haction, hactive⟩ := converging_eq_true.mp hs'
  obtain ⟨w, hw, hcols, hlife | ⟨hdeleting, -⟩⟩ := h wid w' hw'
  · refine converging_eq_true.mpr ⟨wid, w, hw, ?_, ?_, ?_⟩
    · exact (Workspace.instanceId_of_columns hcols).symm.trans hown
    · rwa [← hlife]
    · rwa [← hlife]
  · rw [hdeleting] at haction
    rcases haction with h | h <;> cases h

end Store

def Request.leavesInstance : Request → Bool
  | .requestStop _ | .requestInstanceDeletion _ => true
  | _ => false

open Store in
theorem Accepted.leaving_before {s s' : Store} {r : Request} (h : Accepted s r s')
    (other : r.leavesInstance = false) {id : UUID} (leaving : s'.leaving id = true) :
    s.leaving id = true := by
  obtain ⟨i', row', haction⟩ := leaving_eq_true.mp leaving
  cases h with
  | requestInstanceDeletion | requestStop => cases other
  | createInstance =>
      rcases Table.lookup_insert_cases row' with ⟨-, rfl⟩ | ⟨-, hi⟩
      · rcases haction with h | h <;> cases h
      · exact leaving_eq_true.mpr ⟨i', hi, haction⟩
  | requestSync | requestStart | createKubernetesProvider =>
      obtain ⟨i, hi, rfl | ⟨-, rfl⟩⟩ := stageInstance_cases (s := s) row' rfl
      · exact leaving_eq_true.mpr ⟨i', hi, haction⟩
      · rcases haction with h | h <;> cases h
  | createMember | updateMemberRole | requestMemberDeletion =>
      obtain ⟨i, hi, rfl | ⟨-, -, rfl⟩⟩ := requestInstanceUpdate_cases (s := s) row' rfl
      · exact leaving_eq_true.mpr ⟨i', hi, haction⟩
      · rcases haction with h | h <;> cases h
  | updateTemplate | deleteTemplate | requestTemplateSync =>
      refine leaving_eq_true.mpr ⟨i', ?_, haction⟩
      simpa [stageJob, modifyLifecycle, addJobExecution, drawId] using row'
  | _ => exact leaving_eq_true.mpr ⟨i', row', haction⟩

/-- The request is accepted and makes a workspace converge in an instance on its way out:
it stops or deletes an instance whose workspaces are not settled, or it files a job for a
workspace of an instance that was stopped. -/
def Request.overlaps (s : Store) (r : Request) : Bool :=
  match r.handle s with
  | .error _ => false
  | .ok s' =>
      match r with
      | .requestStop id | .requestInstanceDeletion id => s.converging id
      | .createWorkspace id _ _ _ => s.leaving id
      | .updateWorkspace id _ => s'.nextId != s.nextId &&
          (s.workspaces.lookup id).any fun w => s.leaving w.instanceId
      | _ => false

open Store in
/-- An accepted request keeps workspaces and instances on their way out apart exactly when
it does not overlap. -/
theorem Accepted.workspacesApart_iff {s s' : Store} {r : Request} (h : Accepted s r s')
    (handled : r.handle s = .ok s') (hs : s.WorkspacesApart) :
    s'.WorkspacesApart ↔ r.overlaps s = false := by
  -- A request that stops or deletes an instance leaves the others, and all workspaces, alone.
  have stages : ∀ {name : JobName} {action : Action} {id : UUID} {step : StepName} {i : Instance},
      s.instances.lookup id = some i → (action = .stopping ∨ action = .deleting) →
      ((s.stageJob name action .instance id step).2.WorkspacesApart ↔ s.converging id = false) := by
    intro name action id step i row hout
    have hworkspaces : ∀ id', (s.stageJob name action .instance id step).2.converging id' =
        s.converging id' := fun id' => converging_congr rfl
    constructor
    · intro hapart
      have hleaving : (s.stageJob name action .instance id step).2.leaving id = true :=
        leaving_eq_true.mpr ⟨_, (Table.lookup_modify_self _ _ _).trans (congrArg _ row), hout⟩
      exact (hworkspaces id).symm.trans (hapart id hleaving)
    · intro hidle id' hleaving
      rw [hworkspaces]
      obtain ⟨i', row', haction⟩ := leaving_eq_true.mp hleaving
      obtain ⟨i₀, hi₀, rfl | ⟨rfl, -⟩⟩ := stageInstance_cases (s := s) row' rfl
      · exact hs id' (leaving_eq_true.mpr ⟨i', hi₀, haction⟩)
      · exact hidle
  by_cases other : r.leavesInstance = false ∧ r.convergesWorkspace = false
  · refine iff_of_true (hs.of_before (fun _ => h.leaving_before other.1) fun _ =>
      (h.undisturbed other.2).converging_before) ?_
    unfold Request.overlaps
    rw [handled]
    cases r with
    | requestStop | requestInstanceDeletion => cases other.1
    | createWorkspace | updateWorkspace => cases other.2
    | _ => rfl
  · unfold Request.overlaps
    rw [handled]
    cases h with
    | requestStop idle => exact stages idle.1 (.inl rfl)
    | requestInstanceDeletion row => exact stages row (.inr rfl)
    | createWorkspace =>
        constructor
        · intro hapart
          by_contra hleaving
          rw [Bool.not_eq_false] at hleaving
          have hidle := hapart _ hleaving
          rw [← Bool.not_eq_true, converging_eq_true] at hidle
          exact hidle ⟨s.nextId, _, Table.lookup_insert_self _ _ _, rfl, .inl rfl, fun h => by cases h⟩
        · intro hstays id' hleaving
          by_contra hconverging
          rw [Bool.not_eq_false] at hconverging
          obtain ⟨wid, w', hw', rfl, haction, hactive⟩ := converging_eq_true.mp hconverging
          rcases Table.lookup_insert_cases hw' with ⟨-, rfl⟩ | ⟨-, hw⟩
          · cases hstays.symm.trans hleaving
          · cases (hs _ hleaving).symm.trans
              (converging_eq_true.mpr ⟨wid, w', hw, rfl, haction, hactive⟩)
    | @updateWorkspace id payload w i t workspaces f row idle place settled changed same =>
        subst changed
        have hfiled : ((s.nextId + 1 != s.nextId) && ((s.workspaces.lookup id).any fun w =>
            s.leaving w.instanceId)) = s.leaving w.instanceId := by
          simp [row]
        refine Iff.trans ?_ (iff_of_eq (congrArg (· = false) hfiled.symm))
        have hown : (f w).instanceId = w.instanceId := (same w).2.1
        constructor
        · intro hapart
          by_contra hleaving
          rw [Bool.not_eq_false] at hleaving
          have hidle := hapart _ hleaving
          rw [← Bool.not_eq_true, converging_eq_true] at hidle
          exact hidle ⟨id, _, (workspaces_stageUpdate s f id id).trans
            ((if_pos rfl).trans (congrArg _ row)), hown, .inr rfl, fun h => by cases h⟩
        · intro hstays id' hleaving
          by_contra hconverging
          rw [Bool.not_eq_false] at hconverging
          obtain ⟨wid, w', hw', rfl, haction, hactive⟩ := converging_eq_true.mp hconverging
          rw [workspaces_stageUpdate] at hw'
          split at hw'
          · rw [row] at hw'
            cases hw'
            rw [hown] at hleaving
            cases hstays.symm.trans hleaving
          · cases (hs _ hleaving).symm.trans
              (converging_eq_true.mpr ⟨wid, w', hw', rfl, haction, hactive⟩)
    | keepWorkspace => simpa using hs
    | _ => exact absurd ⟨rfl, rfl⟩ other

open Store in
theorem Committed.workspacesApart {s s' : Store} {β : Type} {t : Transaction β} {a : β}
    {h : WorkerHistory} (hc : Committed s t a s') (hg : Discipline.transaction h t)
    (hl : Consistent catalogue s.ledger) (hs : s.WorkspacesApart) : s'.WorkspacesApart := by
  refine hs.of_before (fun id hleaving => ?_) fun id hconverging => ?_
  · obtain ⟨i', hi', haction⟩ := leaving_eq_true.mp hleaving
    obtain ⟨i, hi, -⟩ := (Narrowed.committed hc).instances id i' hi'
    obtain ⟨r, hr, hworked⟩ := hc.worked hg hl (lifecycle_instance hi')
    obtain rfl := Option.some.inj ((lifecycle_instance hi).symm.trans hr)
    rcases hworked.action_cases with hsame | hup
    · exact leaving_eq_true.mpr ⟨i, hi, hsame ▸ haction⟩
    · rw [hup] at haction
      rcases haction with h | h <;> cases h
  · obtain ⟨wid, w', hw', hown, haction, hactive⟩ := converging_eq_true.mp hconverging
    obtain ⟨w, hw, hcols⟩ := (Narrowed.committed hc).workspaces wid w' hw'
    obtain ⟨r, hr, hworked⟩ := hc.worked hg hl (lifecycle_workspace hw')
    obtain rfl := Option.some.inj ((lifecycle_workspace hw).symm.trans hr)
    exact converging_eq_true.mpr ⟨wid, w, hw, (Prod.mk.inj hcols).1 ▸ hown,
      hworked.action_workspace ▸ haction,
      hc.active_before hg hl (lifecycle_workspace hw) (lifecycle_workspace hw') hactive⟩

def overlapping (e : Entry Op WorkerError World Change) : Bool :=
  match e.what with
  | .changed (.request r) => r.overlaps e.before.store
  | _ => false

open Store in
/-- One move keeps them apart exactly when it is no request that overlaps. -/
theorem Moved.workspacesApart_iff {w w' : World} {t : Trace} {what : WhatHappened}
    (hm : Moved w t what w') (hl : Consistent catalogue w.store.ledger)
    (h : w.store.WorkspacesApart) : w'.store.WorkspacesApart ↔ overlapping ⟨w, what⟩ = false := by
  cases hm with
  | called worker allowed performed =>
      refine iff_of_true ?_ rfl
      cases performed with
      | answered | rolledBack | requested => exact h
      | committed commit => exact commit.workspacesApart allowed hl h
  | @changed _ e _ reacted =>
      subst reacted
      cases e with
      | request r =>
          cases hr : r.handle w.store with
          | error e => simpa [World.react, overlapping, Request.overlaps, hr] using h
          | ok s' =>
              have hstore : (w.react (.request r)).store = s' := by simp [World.react, hr]
              rw [hstore]
              exact (Request.accepted hr).workspacesApart_iff hr h
      | tick => exact iff_of_true h rfl

/-- A run keeps workspaces and instances on their way out apart exactly while no request
overlaps. -/
theorem Run.workspacesApart_iff {w : World} {t : Trace} (h : Run w t) :
    Throughout Store.WorkspacesApart w t ↔ ∀ e ∈ t, overlapping e = false :=
  h.throughout_iff Store.WorkspacesApart.empty fun _ _ _ _ hrun hm hs =>
    hm.workspacesApart_iff hrun.sound.ledger hs

def Op.startsWorkspace : {β : Type} → Op β → Bool
  | _, .call (.createWorkspace _ _ _ _ _) => true
  | _, .call (.createWorkspaceStartBuild _ _ _) => true
  | _, _ => false

/-- The job of the instance has gone past the step that stops or deletes its workspaces. -/
def Instance.pastWorkspaces (i : Instance) : Bool :=
  (i.action == .stopping && i.step != some .instanceStopStep01) ||
    (i.action == .deleting && i.step != some .instanceDeleteStep01)

/-- No current attempt to create or update a workspace starts it once its instance has gone
past its workspaces. -/
def QuietPhases (t : Trace) : Prop := ∀ v worker event rest c id ws i,
  ⟨v, .called worker event⟩ :: rest <:+ t → event.op.startsWorkspace = true →
  Holds (workerHistory worker rest) c →
  c.step = .workspaceCreateStep01 ∨ c.step = .workspaceUpdateStep01 →
  (v.store.ownedExecution c).isSome = true → c.resourceType = some .workspace →
  c.resourceId = some id → v.store.workspaces.lookup id = some ws →
  v.store.instances.lookup ws.instanceId = some i → i.pastWorkspaces = false

theorem Run.owned_converging {w : World} {t : Trace} (h : Run w t) {worker : Nat}
    {c : ExecutionClaim} {id : UUID} {ws : Workspace} (held : Holds (workerHistory worker t) c)
    (step : c.step = .workspaceCreateStep01 ∨ c.step = .workspaceUpdateStep01)
    (owned : (w.store.ownedExecution c).isSome = true) (type : c.resourceType = some .workspace)
    (resource : c.resourceId = some id) (row : w.store.workspaces.lookup id = some ws) :
    w.store.converging ws.instanceId = true := by
  obtain ⟨job, row', hjob, howner, hw, hrunning⟩ := h.owned_workspace held type resource owned
  obtain rfl : ws = row' := Option.some.inj (row.symm.trans hw)
  obtain ⟨hrow, -, -, -, -, hcurrent⟩ := Store.ownedExecution_eq_some.mp hjob
  have hl := h.sound.ledger
  obtain ⟨-, -, -, haction⟩ :=
    Store.matches_lifecycle hl hrow hcurrent howner (Store.lifecycle_workspace hw)
  have hmem := Store.owned_mem_steps hl hjob
  refine Store.converging_eq_true.mpr ⟨id, ws, row, rfl, ?_, fun h => by cases hrunning.symm.trans h⟩
  generalize ws.action = action at haction
  rcases step with h | h <;> rw [h] at hmem <;> revert hmem haction
  · cases job.name <;> cases action <;> decide
  · cases job.name <;> cases action <;> decide

/-- Workspaces are quiet while their instance is stopped or deleted, in every run in which no
request overlaps. -/
theorem workspaces_are_quiet (steps : List Step)
    (apart : ∀ e ∈ (run steps).trace, overlapping e = false) : QuietPhases (run steps).trace := by
  intro v worker event rest c id ws i hentry _ held hstep owned type resource row place
  have hrun := run_reaches steps
  obtain ⟨hv, -, -⟩ := hrun.entry hentry
  obtain ⟨-, hbefore⟩ := hrun.workspacesApart_iff.mpr apart
  have hapart : v.store.WorkspacesApart :=
    hbefore ⟨v, .called worker event⟩ (hentry.subset List.mem_cons_self)
  have hconverging := hv.owned_converging held hstep owned type resource row
  by_contra hpast
  rw [Bool.not_eq_false] at hpast
  have hleaving : v.store.leaving ws.instanceId = true := by
    refine Store.leaving_eq_true.mpr ⟨i, place, ?_⟩
    simp only [Instance.pastWorkspaces, Bool.or_eq_true, Bool.and_eq_true, beq_iff_eq] at hpast
    exact hpast.imp And.left And.left
  cases (hapart _ hleaving).symm.trans hconverging

/-- Worker 6 creates workspace 9, and worker 7 stops its instance after that. -/
def stoppingAfterwards : List Step :=
  deploying ++ [requesting (.createWorkspace 1 5 3 ⟨"workspace", 6, [], []⟩),
    delivering .workspaceCreateStep01 10] ++
  answering 6 [.done, .done, .done, .workspace none,
    .workspace (some ⟨77, .running, 78, .start, "workspace", some 2⟩), .done, .done] ++
  [requesting (.requestStop 1), delivering .instanceStopStep01 11] ++
  answering 7 [.done, .done, .flag true, .done, .done, .flag true, .done, .page ⟨[], 0⟩, .done,
    .page ⟨[], 0⟩, .done, .page ⟨[], 0⟩, .done, .flag true]

theorem workspaces_are_quiet_afterwards : QuietPhases (run stoppingAfterwards).trace :=
  workspaces_are_quiet stoppingAfterwards (by decide +kernel)

/-- Worker 6 finds no workspace to stop; worker 7 is delivered the creation of workspace 9 and
looks for it. -/
def stoppingMeanwhile : List Step :=
  deploying ++ [requesting (.createWorkspace 1 5 3 ⟨"workspace", 6, [], []⟩),
    requesting (.requestStop 1), delivering .instanceStopStep01 11] ++
  answering 6 [.done, .done, .flag true, .done, .done, .flag true, .done, .page ⟨[], 0⟩, .done,
    .page ⟨[], 0⟩, .done, .page ⟨[], 0⟩, .done, .flag true] ++
  [delivering .workspaceCreateStep01 10] ++ answering 7 [.done, .done, .done, .workspace none]

def startsLast : Trace → Bool
  | ⟨_, .called _ event⟩ :: _ => event.op.startsWorkspace
  | _ => false

/-- A workspace is created after the workspaces of its instance were stopped. -/
theorem creation_follows_stop : ¬∀ steps : List Step, QuietPhases (run steps).trace := by
  intro h
  have hacting : acting 7 (run stoppingMeanwhile) = true := by decide +kernel
  obtain ⟨event, htrace⟩ := run_acting hacting .done
  have hstarts : startsLast (run (stoppingMeanwhile ++ [.act 7 .done])).trace = true := by
    decide +kernel
  have hfirst : (workerHistory 7 (run stoppingMeanwhile).trace).getLast?.bind claimGiven =
      some ⟨10, .registered .workspaceCreateStep01, .workspaceCreateStep01, 1, some .workspace,
        some 9⟩ := by decide +kernel
  have howned : ((run stoppingMeanwhile).world.store.ownedExecution ⟨10,
      .registered .workspaceCreateStep01, .workspaceCreateStep01, 1, some .workspace,
      some 9⟩).isSome = true := by decide +kernel
  have hplace : ((run stoppingMeanwhile).world.store.workspaces.lookup 9).map (fun w =>
      w.instanceId) = some 1 := by decide +kernel
  have hpast : ((run stoppingMeanwhile).world.store.instances.lookup 1).map (fun i =>
      i.pastWorkspaces) = some true := by decide +kernel
  obtain ⟨ws, row, hws⟩ := Option.map_eq_some_iff.mp hplace
  obtain ⟨i, hi, hgone⟩ := Option.map_eq_some_iff.mp hpast
  rw [htrace] at hstarts
  have hquiet := h _ _ 7 event _ _ 9 ws i ⟨[], htrace.symm⟩ hstarts (holds_of_first hfirst) (.inl rfl)
    howned rfl rfl row (hws ▸ hi)
  cases hquiet.symm.trans hgone

end CoderManager
