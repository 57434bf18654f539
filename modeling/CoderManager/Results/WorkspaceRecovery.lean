import CoderManager.Domains.CoderWorkspaces
import CoderManager.Results.RecoveryAttempts

/-!
# Recovery of a failed workspace

A workspace of a started and successful instance waits for its next attempt, and its
deployment is as earlier attempts left it. Whether the attempt succeeds is decided by
what it finds, whatever its creation had come to.
-/
namespace CoderManager
open Programs Tables

def Call.workspaceDeployment : {β : Type} → Call β → Option InstanceUrl
  | _, .workspace url _ | _, .workspaceByOwnerAndName url _ _ | _, .createWorkspace url _ _ _ _
  | _, .updateWorkspaceName url _ _ | _, .workspaceBuildParameters url _
  | _, .createWorkspaceStartBuild url _ _ | _, .createWorkspaceStopBuild url _
  | _, .createWorkspaceDeleteBuild url _ | _, .workspaceBuild url _ => some url
  | _, _ => none

def Op.workspaceDeployment : {β : Type} → Op β → Option InstanceUrl
  | _, .call c => c.workspaceDeployment
  | _, _ => none

def workspaceDeployment : WhatHappened → Option InstanceUrl
  | .called _ e => e.op.workspaceDeployment
  | .changed _ => none

section Behind
variable {σ : Type} (S : WorkspaceService σ)

/-- The workspaces a deployment may hold after a trace. Requests were answered, or
failed before or after they arrived; builds went on, and others kept to workspaces of
their own. -/
inductive Behind (url : InstanceUrl) : Trace → σ → Prop
  | start {r : σ} (empty : ∀ id, S.workspace r id = none) : Behind url [] r
  | other {e : Entry Op WorkerError World Change} {t : Trace} {r : σ}
      (before : Behind url t r) (quiet : workspaceDeployment e.what ≠ some url) :
      Behind url (e :: t) r
  | served {w : World} {worker : Nat} {β : Type} {call : Call β} {answer : Except WorkerError β}
      {t : Trace} {r r' : σ} (before : Behind url t r)
      (at_ : call.workspaceDeployment = some url) (served : S.answers call r answer r') :
      Behind url (⟨w, .called worker ⟨.call call, answer⟩⟩ :: t) r'
  | failed {w : World} {worker : Nat} {β : Type} {call : Call β} {e : WorkerError} {t : Trace}
      {r : σ} (before : Behind url t r) (at_ : call.workspaceDeployment = some url) :
      Behind url (⟨w, .called worker ⟨.call call, .error e⟩⟩ :: t) r
  | lost {w : World} {worker : Nat} {β : Type} {call : Call β} {answer : Except WorkerError β}
      {e : WorkerError} {t : Trace} {r r' : σ} (before : Behind url t r)
      (at_ : call.workspaceDeployment = some url) (served : S.answers call r answer r') :
      Behind url (⟨w, .called worker ⟨.call call, .error e⟩⟩ :: t) r'
  | built {t : Trace} {r r' : σ} {id : UUID} {w : RemoteWorkspace} {status : BuildStatus}
      (before : Behind url t r) (row : S.workspace r id = some w)
      (revised : S.Revises r r' id (some (w.observed status))) : Behind url t r'
  | deleted {t : Trace} {r r' : σ} {id : UUID} {w : RemoteWorkspace}
      (before : Behind url t r) (row : S.workspace r id = some w)
      (deleting : w.latest.transition = .delete) (revised : S.Revises r r' id none) :
      Behind url t r'
  | foreign {t : Trace} {r r' : σ} (before : Behind url t r) (own : ∀ id w, w.foreign = false →
      (S.workspace r' id = some w ↔ S.workspace r id = some w)) : Behind url t r'

variable {S}

theorem Behind.of_quiet {url : InstanceUrl} {t : Trace} {r : σ}
    (empty : ∀ id, S.workspace r id = none)
    (quiet : ∀ e ∈ t, workspaceDeployment e.what ≠ some url) : Behind S url t r := by
  induction t with
  | nil => exact .start empty
  | cons e t ih =>
      exact .other (ih fun e' he' => quiet e' (List.mem_cons_of_mem _ he')) (quiet e List.mem_cons_self)

end Behind

section Results
variable {σ : Type}

/-- When the next attempt converges: what it finds is of the deployment's template, and
there is something to find unless the workspace is still being created. -/
def Recovers (S : WorkspaceService σ) (r : σ) (action : Action)
    (snapshot : WorkspaceRemoteSnapshot) : Prop :=
  if action = .creating then CreationRecovers S r snapshot else UpdateRecovers S r snapshot

def NextAttemptSucceeds (S : WorkspaceService σ) (w : World) (r : σ) (id j : UUID)
    (step : StepName) : Prop :=
  ∀ protectedUsernames remaining fuel, remaining + 1 < fuel →
    EndsWell S (Body.deliver step.task j protectedUsernames fuel).program ⟨w, r, remaining⟩
      fun _ x => InSuccess id x.world.store

theorem Run.next_attempt_iff {S : WorkspaceService σ} [S.Lawful] {w : World} {t : Trace}
    (h : Run w t) {r : σ} {id : UUID} {ws : Workspace} {snapshot : WorkspaceRemoteSnapshot}
    (row : w.store.workspaces.lookup id = some ws)
    (kind : ws.action = .creating ∨ ws.action = .updating)
    (waiting : ws.status = .pending ∨ ws.status = .error)
    (read : w.store.workspaceRemoteSnapshot id = .ok snapshot) :
    ∃ j step, ws.jobId = some j ∧ ws.step = some step ∧
      (NextAttemptSucceeds S w r id j step ↔ Recovers S r ws.action snapshot) := by
  have hs := h.sound
  have hlifecycle : w.store.lifecycle .workspace id = some ws.toLifecycle := by
    rw [Store.lifecycle, row]
    rfl
  have hactive : ws.status ≠ .success := by rcases waiting with h | h <;> simp [h]
  obtain ⟨j, job, hj, hjob, htype, hid, hstep, haction, -, hflow, -⟩ :=
    hs.active_job hlifecycle hactive
  have hmade : job.name.resourceType = some .workspace :=
    hs.ledger.made j job.lease (.workspace, some id) (by simp [Store.ledger, hjob])
      (by simp [JobExecution.lease, htype, hid])
  obtain ⟨hcreate, hupdate⟩ := workspace_job_step hmade hflow
  obtain ⟨c, s, hworking, hresource, hsame, hclaims⟩ := hs.claims row waiting hj hstep
  refine ⟨j, job.step, hj, hstep, ?_⟩
  -- The operation of the step, under the claim of the attempt.
  have hattempt : ∀ (users : List String) (remaining fuel : Nat), remaining + 1 < fuel →
      (EndsWell S (Body.deliver job.step.task j users fuel).program ⟨w, r, remaining⟩
        (fun _ x => InSuccess id x.world.store) ↔ Recovers S r ws.action snapshot) := by
    intro users remaining fuel enough
    refine upholds_bind.trans ((endsWell_runClaimedStep_iff hclaims).trans ?_)
    have hread : s.workspaceRemoteSnapshot id = .ok snapshot := hsame.trans read
    unfold Recovers
    rcases kind with hcreating | hupdating
    · rw [hcreate (hcreating ▸ haction), if_pos hcreating]
      exact endsWell_createWorkspace_iff hworking hresource hread enough
    · rw [hupdate (hupdating ▸ haction), if_neg (by simp [hupdating])]
      exact endsWell_updateWorkspace_iff hworking hresource hread enough
  constructor
  · exact fun hall => (hattempt ["admin"] 0 2 (by decide)).mp (hall ["admin"] 0 2 (by decide))
  · exact fun hrecovers users remaining fuel enough => (hattempt users remaining fuel enough).mpr
      hrecovers

/-- A workspace of a started and successful instance waits for its next attempt. Its
deployment is as earlier attempts left it, and no foreign workspace has its name. -/
structure Stalled (S : WorkspaceService σ) (w : World) (t : Trace) (r : σ) (id : UUID)
    (ws : Workspace) : Prop where
  row : w.store.workspaces.lookup id = some ws
  kind : ws.action = .creating ∨ ws.action = .updating
  waiting : ws.status = .pending ∨ ws.status = .error
  served : ∃ i, w.store.instances.lookup ws.instanceId = some i ∧ i.state = .started ∧
    i.status = .success
  behind : Behind S ws.instanceId t r
  own : ∀ m rid remote, w.store.members.lookup ws.memberId = some m →
    S.workspace r rid = some remote → remote.owner = m.username → remote.name = ws.name →
    remote.foreign = false

/-- What the attempt reads of the workspace lets it converge. -/
def RecoversNow (S : WorkspaceService σ) (w : World) (r : σ) (id : UUID) (ws : Workspace) :
    Prop :=
  ∃ snapshot, w.store.workspaceRemoteSnapshot id = .ok snapshot ∧ Recovers S r ws.action snapshot

/-- The workspace has a job, and the attempt that takes its step succeeds. -/
def RetrySucceeds (S : WorkspaceService σ) (w : World) (r : σ) (id : UUID) (ws : Workspace) :
    Prop :=
  ∃ j step, ws.jobId = some j ∧ ws.step = some step ∧ NextAttemptSucceeds S w r id j step

theorem Stalled.retry_iff {S : WorkspaceService σ} [S.Lawful] {w : World} {t : Trace} {r : σ}
    {id : UUID} {ws : Workspace} (hrun : Run w t) (h : Stalled S w t r id ws) :
    RetrySucceeds S w r id ws ↔ RecoversNow S w r id ws := by
  obtain ⟨i, hi, -, hsuccess⟩ := h.served
  obtain ⟨snapshot, hread⟩ := hrun.reads_workspace h.row hi hsuccess
  obtain ⟨j, step, hj, hstep, hiff⟩ :=
    hrun.next_attempt_iff (S := S) (r := r) h.row h.kind h.waiting hread
  constructor
  · rintro ⟨j', step', hj', hstep', hnext⟩
    cases hj.symm.trans hj'
    cases hstep.symm.trans hstep'
    exact ⟨snapshot, hread, hiff.mp hnext⟩
  · rintro ⟨snapshot', hread', hrecovers⟩
    cases hread.symm.trans hread'
    exact ⟨j, step, hj, hstep, hiff.mpr hrecovers⟩

end Results

/-- In every run a stalled workspace recovers with its next attempt exactly when there
is a workspace of the template to adopt or update, or still one to create. -/
theorem stalled_workspaces_recover_iff {σ : Type} (S : WorkspaceService σ) [S.Lawful]
    (steps : List Step) (r : σ) (id : UUID) (ws : Workspace) :
    (Stalled S (run steps).world (run steps).trace r id ws →
        RetrySucceeds S (run steps).world r id ws) ↔
      (Stalled S (run steps).world (run steps).trace r id ws →
        RecoversNow S (run steps).world r id ws) :=
  ⟨fun h hs => (hs.retry_iff (run_reaches steps)).mp (h hs),
    fun h hs => (hs.retry_iff (run_reaches steps)).mpr (h hs)⟩

/-- Worker 6 is refused before it creates workspace 9. -/
def refusing : List Step :=
  deploying ++ [requesting (.createWorkspace 1 5 3 ⟨"workspace", 6, [], []⟩),
    delivering .workspaceCreateStep01 10] ++
  answering 6 [.done, .done, .fail .httpError, .done]

/-- Workspace 9 is then updated. -/
def stranding : List Step :=
  refusing ++ [requesting (.updateWorkspace 9 ⟨"workspace", 6, [], []⟩)]

theorem stalled_untouched (w : World) (t : Trace) (id : UUID) {action : Action}
    {status : Leases.Status}
    (row : (w.store.workspaces.lookup id).map (fun ws => (ws.action, ws.status, ws.instanceId)) =
      some (action, status, 1))
    (kind : action = .creating ∨ action = .updating) (waiting : status = .pending ∨ status = .error)
    (served : (w.store.instances.lookup 1).map (fun i => (i.state, i.status)) =
      some (.started, .success))
    (quiet : ∀ e ∈ t, workspaceDeployment e.what ≠ some 1) :
    ∃ ws, ws.action = action ∧ Stalled CoderWorkspaces.service w t .empty id ws := by
  obtain ⟨ws, row, hws⟩ := Option.map_eq_some_iff.mp row
  obtain ⟨i, hi, hready⟩ := Option.map_eq_some_iff.mp served
  obtain ⟨haction, hstatus, hinstance⟩ := by simpa only [Prod.mk.injEq] using hws
  obtain ⟨hstate, hsuccess⟩ := by simpa only [Prod.mk.injEq] using hready
  refine ⟨ws, haction, row, haction ▸ kind, hstatus ▸ waiting, ⟨i, hinstance ▸ hi, hstate, hsuccess⟩,
    hinstance ▸ .of_quiet (fun _ => rfl) quiet, ?_⟩
  intro m rid remote _ hremote
  cases hremote

/-- The creation that was refused is retried, and there is nothing in its way. -/
theorem refused_creation_recovers : ∃ ws,
    Stalled CoderWorkspaces.service (run refusing).world (run refusing).trace .empty 9 ws ∧
      RetrySucceeds CoderWorkspaces.service (run refusing).world .empty 9 ws := by
  obtain ⟨ws, haction, hstalled⟩ := stalled_untouched (run refusing).world (run refusing).trace 9
    (by decide +kernel) (.inl rfl) (.inr rfl) (by decide +kernel) (by decide +kernel)
  refine ⟨ws, hstalled, (stalled_workspaces_recover_iff CoderWorkspaces.service refusing .empty 9
    ws).mpr (fun hs => ?_) hstalled⟩
  obtain ⟨i, hi, -, hsuccess⟩ := hs.served
  obtain ⟨snapshot, hread⟩ := (run_reaches refusing).reads_workspace hs.row hi hsuccess
  refine ⟨snapshot, hread, ?_⟩
  rw [Recovers, if_pos haction]
  intro rid w hfind
  cases WorkspaceService.workspace_find hfind

/-- An update finds no workspace after a creation that never reached its deployment. -/
theorem failed_creation_cannot_be_updated :
    ¬∀ (steps : List Step) (r : CoderWorkspaces) (id : UUID) (ws : Workspace),
      Stalled CoderWorkspaces.service (run steps).world (run steps).trace r id ws →
        RetrySucceeds CoderWorkspaces.service (run steps).world r id ws := by
  intro h
  obtain ⟨ws, haction, hstalled⟩ := stalled_untouched (run stranding).world (run stranding).trace
    9 (by decide +kernel) (.inr rfl) (.inl rfl) (by decide +kernel) (by decide +kernel)
  obtain ⟨snapshot, -, hrecovers⟩ := (hstalled.retry_iff (run_reaches stranding)).mp
    (h stranding .empty 9 ws hstalled)
  rw [Recovers, if_neg (by simp [haction])] at hrecovers
  obtain ⟨rid, remote, hfind, -⟩ := hrecovers
  cases WorkspaceService.workspace_find hfind

end CoderManager
