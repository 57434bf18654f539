import CoderManager.Discipline.Attempts
import CoderManager.Refinement.Workspaces
import CoderManager.Results.WorkspaceReferences

/-!
# Applied parameter revisions

A completion copies the revision of the row as it finds it. That is the revision
the attempt read, since nobody else writes the row while the attempt owns it.
-/
namespace CoderManager
open Programs Tables Leases

def converges (step : StepName) : Prop :=
  step = .workspaceCreateStep01 ∨ step = .workspaceUpdateStep01

def Snapshot (h : WorkerHistory) (c : ExecutionClaim) (snapshot : WorkspaceRemoteSnapshot) : Prop :=
  ∃ id, c.resourceId = some id ∧ Read h (.workspaceRemoteSnapshot id) snapshot

/-- The attempt built the workspace with the parameters of the snapshot, or
compared them with those of a build; a build that is no start has none. -/
inductive Built (h : WorkerHistory) (snapshot : WorkspaceRemoteSnapshot) : Prop
  | created {url : InstanceUrl} {username name : String} {templateId : UUID} {remote : CoderWorkspace}
      (call : Called h (.createWorkspace url username name templateId snapshot.parameters) remote)
  | started {url : InstanceUrl} {workspaceId : UUID} {build : CoderWorkspaceBuild}
      (call : Called h (.createWorkspaceStartBuild url workspaceId snapshot.parameters) build)
  | compared {url : InstanceUrl} {buildId : UUID}
      (call : Called h (.workspaceBuildParameters url buildId) snapshot.parameters)
  | empty (none : snapshot.parameters = [])

theorem Snapshot.later {h h' : WorkerHistory} {c : ExecutionClaim}
    {snapshot : WorkspaceRemoteSnapshot} (hr : Snapshot h c snapshot) (hs : h <:+ h') :
    Snapshot h' c snapshot := by
  obtain ⟨id, hid, hread⟩ := hr
  exact ⟨id, hid, hread.later hs⟩

theorem Built.later {h h' : WorkerHistory} {snapshot : WorkspaceRemoteSnapshot}
    (hb : Built h snapshot) (hs : h <:+ h') : Built h' snapshot := by
  cases hb with
  | created call => exact .created (call.later hs)
  | started call => exact .started (call.later hs)
  | compared call => exact .compared (call.later hs)
  | empty none => exact .empty none

def Stored (h : WorkerHistory) (c : ExecutionClaim) : Prop :=
  ∃ workspaceId buildId, Wrote h (.storeWorkspaceRemoteIds c workspaceId buildId) true

/-- An attempt reads one snapshot, first of all, and builds and completes from it. -/
def revisionRule (h : WorkerHistory) (c : ExecutionClaim) : {β : Type} → Op β → Prop
  | _, .query (.workspaceRemoteSnapshot id) => h = [claimEvent c] ∧ c.resourceId = some id
  | _, .call (.createWorkspace _ _ _ _ parameters) =>
      ∃ snapshot, Snapshot h c snapshot ∧ parameters = snapshot.parameters
  | _, .call (.createWorkspaceStartBuild _ _ parameters) =>
      ∃ snapshot, Snapshot h c snapshot ∧ parameters = snapshot.parameters
  | _, .transaction (.completeExecution _ (.convergeWorkspace _ _ applyParameters) _) =>
      ∃ snapshot, Snapshot h c snapshot ∧ if applyParameters then Built h snapshot ∧ Stored h c
        else snapshot.appliedParametersRevision = some snapshot.parametersRevision
  | _, _ => True

section Attempts
variable {h : WorkerHistory} {c : ExecutionClaim} {snapshot : WorkspaceRemoteSnapshot}

theorem revisions_permits (hc : Holds h c) :
    Permits (attempts converges revisionRule) h (workspaceHeartbeat c) := by
  refine .always ?_ fun _ hs =>
    .bind (.perform (attempts_guard (hc.later hs) trivial)) fun _ _ _ => .pure ()
  intro h' hs β k hk
  refine attempts_guard (hc.later hs) ?_
  cases k <;> first | exact trivial | rcases hk with ⟨⟨⟩⟩ | ⟨⟨⟩⟩

theorem findRemoteWorkspace_attempt (hc : Holds h c) :
    Keeps (attempts converges revisionRule) (findRemoteWorkspace snapshot) h := by
  unfold findRemoteWorkspace
  cases snapshot.coderWorkspaceId with
  | none => exact .perform (attempts_guard hc trivial)
  | some workspaceId =>
      refine .bind (.perform (attempts_guard hc trivial)) fun remote h' hs => ?_
      cases remote with
      | some remote => exact .pure _
      | none => exact .perform (attempts_guard (hc.later hs) trivial)

theorem requireMatchingTemplate_attempt (remote : CoderWorkspace) :
    Keeps (attempts converges revisionRule) (requireMatchingTemplate remote snapshot) h :=
  .ite (fun _ => .throw _) fun _ => .pure _

theorem startBuild_builds (hc : Holds h c) (hread : Snapshot h c snapshot) (workspaceId : UUID) :
    Obeys (attempts converges revisionRule) (request (.createWorkspaceStartBuild snapshot.instanceUrl
      workspaceId snapshot.parameters)) h (fun _ h' => h <:+ h' ∧ Built h' snapshot)
      fun _ _ => True := by
  refine obeys_perform.mpr ⟨attempts_guard hc ⟨snapshot, hread, rfl⟩, fun build _ => ?_,
    fun _ _ => trivial⟩
  exact ⟨List.suffix_cons _ _, .started List.mem_cons_self⟩

theorem creationBuild_builds (hc : Holds h c) (hread : Snapshot h c snapshot)
    (remote : CoderWorkspace) (created : Bool) (hcreated : created = true → Built h snapshot) :
    Obeys (attempts converges revisionRule) (Tasks.creationBuild snapshot remote created) h
      (fun _ h' => h <:+ h' ∧ Built h' snapshot) fun _ _ => True := by
  have choose : ∀ current h', h <:+ h' → (current = snapshot.parameters → Built h' snapshot) →
      Obeys (attempts converges revisionRule)
        (if current ≠ snapshot.parameters ∨
            Tasks.restartStatuses.contains remote.latestBuild.status then
          request (.createWorkspaceStartBuild snapshot.instanceUrl remote.id snapshot.parameters)
        else pure remote.latestBuild) h' (fun _ h'' => h <:+ h'' ∧ Built h'' snapshot)
        fun _ _ => True := by
    intro current h' hs hcompared
    split
    · refine (startBuild_builds (hc.later hs) (hread.later hs) remote.id).mono ?_ fun _ _ h => h
      exact fun _ h'' hb => ⟨hs.trans hb.1, hb.2⟩
    · rename_i hkept
      simp only [not_or, ne_eq, not_not] at hkept
      exact obeys_pure.mpr ⟨hs, hcompared hkept.1⟩
  cases created with
  | true => exact obeys_pure.mpr ⟨List.suffix_rfl, hcreated rfl⟩
  | false =>
      by_cases ht : remote.latestBuild.transition = .start
      · simp only [Tasks.creationBuild, ht, if_true]
        refine obeys_bind.mpr (obeys_perform.mpr ⟨attempts_guard hc trivial, fun current _ => ?_,
          fun _ _ => trivial⟩)
        refine choose current _ (List.suffix_cons _ _) fun heq => ?_
        subst heq
        exact .compared List.mem_cons_self
      · simp only [Tasks.creationBuild, ht, if_false]
        exact choose [] h List.suffix_rfl fun heq => .empty heq.symm

theorem updateBuild_builds (hc : Holds h c) (hread : Snapshot h c snapshot)
    (remote : CoderWorkspace) :
    Obeys (attempts converges revisionRule) (Tasks.updateBuild snapshot remote) h
      (fun _ h' => h <:+ h' ∧ Built h' snapshot) fun _ _ => True := by
  unfold Tasks.updateBuild
  extract_lets latest restart
  split
  · refine obeys_bind.mpr (obeys_perform.mpr ⟨attempts_guard hc trivial, fun current _ => ?_,
      fun _ _ => trivial⟩)
    have hs := List.suffix_cons (⟨.call (.workspaceBuildParameters snapshot.instanceUrl
      remote.latestBuild.id), .ok current⟩ : WorkerEvent) h
    split
    · rename_i heq
      subst heq
      exact obeys_pure.mpr ⟨hs, .compared List.mem_cons_self⟩
    · refine (startBuild_builds (hc.later hs) (hread.later hs) remote.id).mono ?_ fun _ _ h => h
      exact fun _ h'' hb => ⟨hs.trans hb.1, hb.2⟩
  · exact startBuild_builds hc hread remote.id

theorem applied_attempt (hc : Holds h c) (hread : Snapshot h c snapshot) (built : Built h snapshot)
    (remote : CoderWorkspace) (build : CoderWorkspaceBuild) (fuel : Nat) :
    Keeps (attempts converges revisionRule) (do
      if ← transact (.storeWorkspaceRemoteIds c remote.id build.id) then
        let build ← waitWorkspaceBuild snapshot.instanceUrl .running (workspaceHeartbeat c) fuel build
        completeWorkspace c (some remote.id) (some build.id) true
      else return .noop) h := by
  refine .perform_bind (attempts_guard hc trivial) fun stored _ => ?_
  cases stored with
  | false => exact .pure _
  | true =>
      have hs₁ := List.suffix_cons (⟨.transaction (.storeWorkspaceRemoteIds c remote.id build.id),
        .ok true⟩ : WorkerEvent) h
      have hstored : Stored (⟨.transaction (.storeWorkspaceRemoteIds c remote.id build.id),
          .ok true⟩ :: h) c := ⟨_, _, List.mem_cons_self⟩
      refine .bind (waitWorkspaceBuild_keeps (revisions_permits (hc.later hs₁)) _ _ _)
        fun build h₂ hs₂ => ?_
      have hs := hs₁.trans hs₂
      refine .bind (.perform (attempts_guard (hc.later hs) ?_)) fun _ _ _ => .pure _
      obtain ⟨workspaceId, buildId, hwrote⟩ := hstored
      exact ⟨snapshot, hread.later hs, built.later hs, workspaceId, buildId, hwrote.later hs₂⟩

end Attempts

section Steps
variable {c : ExecutionClaim}

theorem snapshot_bind {α : Type} {k : WorkspaceRemoteSnapshot → Worker α}
    (rest : ∀ snapshot h, Holds h c → Snapshot h c snapshot →
      Keeps (attempts converges revisionRule) (k snapshot) h) :
    Keeps (attempts converges revisionRule) (do
      let workspaceId ← liftExcept c.requiredResourceId
      let snapshot ← query (.workspaceRemoteSnapshot workspaceId)
      k snapshot) [claimEvent c] := by
  cases hid : c.resourceId with
  | none =>
      simp only [ExecutionClaim.requiredResourceId, hid, liftExcept]
      exact .throw _
  | some id =>
      simp only [ExecutionClaim.requiredResourceId, hid, liftExcept]
      refine .perform_bind (attempts_guard Holds.start ⟨rfl, hid⟩) fun snapshot _ => ?_
      exact rest snapshot _ (Holds.start.cons _) ⟨id, hid, List.mem_cons_self⟩

theorem createWorkspace_attempt (fuel : Nat) :
    Keeps (attempts converges revisionRule) (Tasks.createWorkspace fuel c) [claimEvent c] := by
  refine snapshot_bind fun snapshot h hc hread => ?_
  refine .bind (.perform (attempts_guard hc trivial)) fun _ h₁ hs₁ => ?_
  refine .bind (findRemoteWorkspace_attempt (hc.later hs₁)) fun found h₂ hs₂ => ?_
  have hc₂ := hc.later (hs₁.trans hs₂)
  have hread₂ := hread.later (hs₁.trans hs₂)
  have converge : ∀ remote : CoderWorkspace, ∀ h', h₂ <:+ h' →
      (found.isNone = true → Built h' snapshot) → Keeps (attempts converges revisionRule) (do
        requireMatchingTemplate remote snapshot
        let build ← Tasks.creationBuild snapshot remote found.isNone
        if ← transact (.storeWorkspaceRemoteIds c remote.id build.id) then
          let build ← waitWorkspaceBuild snapshot.instanceUrl .running (workspaceHeartbeat c) fuel
            build
          completeWorkspace c (some remote.id) (some build.id) true
        else return .noop) h' := by
    intro remote h' hs hcreated
    refine .bind (requireMatchingTemplate_attempt _) fun _ h₃ hs₃ => ?_
    have hs' := hs.trans hs₃
    refine obeys_bind.mpr ((creationBuild_builds (hc₂.later hs') (hread₂.later hs') remote _
      fun hnew => (hcreated hnew).later hs₃).mono ?_ fun _ _ _ => trivial)
    rintro build h₄ ⟨hs₄, hbuilt⟩
    exact applied_attempt (hc₂.later (hs'.trans hs₄)) (hread₂.later (hs'.trans hs₄)) hbuilt _ _ _
  cases found with
  | some remote => exact converge remote h₂ List.suffix_rfl nofun
  | none =>
      refine .perform_bind (attempts_guard hc₂ ⟨snapshot, hread₂, rfl⟩) fun remote _ => ?_
      exact converge remote _ (List.suffix_cons _ _) fun _ => .created List.mem_cons_self

theorem updateWorkspace_attempt (fuel : Nat) :
    Keeps (attempts converges revisionRule) (Tasks.updateWorkspace fuel c) [claimEvent c] := by
  refine snapshot_bind fun snapshot h hc hread => ?_
  refine .bind (.perform (attempts_guard hc trivial)) fun _ h₁ hs₁ => ?_
  refine .bind (findRemoteWorkspace_attempt (hc.later hs₁)) fun found h₂ hs₂ => ?_
  have hc₂ := hc.later (hs₁.trans hs₂)
  have hread₂ := hread.later (hs₁.trans hs₂)
  cases found with
  | none => exact .throw _
  | some remote =>
      have converge : ∀ h', h₂ <:+ h' → Keeps (attempts converges revisionRule) (do
          if snapshot.appliedParametersRevision ≠ some snapshot.parametersRevision then
            let build ← Tasks.updateBuild snapshot remote
            if ← transact (.storeWorkspaceRemoteIds c remote.id build.id) then
              let build ← waitWorkspaceBuild snapshot.instanceUrl .running (workspaceHeartbeat c)
                fuel build
              completeWorkspace c (some remote.id) (some build.id) true
            else return .noop
          else completeWorkspace c (some remote.id) none false) h' := by
        intro h' hs
        refine .ite (fun _ => ?_) fun hcurrent => ?_
        · refine obeys_bind.mpr ((updateBuild_builds (hc₂.later hs) (hread₂.later hs) remote).mono ?_
            fun _ _ _ => trivial)
          rintro build h₃ ⟨hs₃, hbuilt⟩
          exact applied_attempt (hc₂.later (hs.trans hs₃)) (hread₂.later (hs.trans hs₃)) hbuilt _ _ _
        · refine .bind (.perform (attempts_guard (hc₂.later hs) ?_)) fun _ _ _ => .pure _
          exact ⟨snapshot, hread₂.later hs, not_not.mp hcurrent⟩
      refine .bind (requireMatchingTemplate_attempt _) fun _ h₃ hs₃ => ?_
      by_cases hname : remote.name = snapshot.name
      · simp only [hname, ne_eq, not_true_eq_false, if_false]
        exact converge h₃ hs₃
      · simp only [hname, ne_eq, not_false_eq_true, if_true]
        refine .bind (.perform (attempts_guard (hc₂.later hs₃) trivial)) fun _ h₄ hs₄ => ?_
        exact converge h₄ (hs₃.trans hs₄)

/-- Every attempt of a run that converges a workspace keeps the rule. -/
theorem run_converges (steps : List Step) {e : Entry Op WorkerError World Change} {rest : Trace}
    (hs : e :: rest <:+ (run steps).trace) {worker : Nat} {event : WorkerEvent}
    (what : e.what = .called worker event) (held : Holds (workerHistory worker rest) c)
    (hstep : converges c.step) : revisionRule (workerHistory worker rest) c event.op := by
  refine run_attempts converges revisionRule ?_ steps hs what held hstep
  intro protectedUsernames fuel step c hc hin
  refine .of_keeps ?_ fun _ => trivial
  rcases hin with rfl | rfl
  · exact createWorkspace_attempt fuel
  · exact updateWorkspace_attempt fuel

end Steps

theorem Store.workspaceRemoteSnapshot_revisions {s : Store} {id : UUID}
    {snapshot : WorkspaceRemoteSnapshot} {row : Workspace}
    (h : s.workspaceRemoteSnapshot id = .ok snapshot) (hrow : s.workspaces.lookup id = some row) :
    row.parametersRevision = snapshot.parametersRevision ∧
      row.appliedParametersRevision = snapshot.appliedParametersRevision := by
  simp only [workspaceRemoteSnapshot, bind_eq_ok, found_eq_ok, pure_eq_ok] at h
  obtain ⟨w, hw, _, -, _, -, _, -, _, -, _, -, rfl⟩ := h
  cases hrow.symm.trans hw
  exact ⟨rfl, rfl⟩

theorem Holds.before_last {worker : Nat} {t : Trace} {w : World} {what : WhatHappened}
    {c : ExecutionClaim} (held : Holds (workerHistory worker (⟨w, what⟩ :: t)) c) :
    Holds (workerHistory worker t) c ∨ workerHistory worker t = [] := by
  cases what with
  | changed e => exact .inl held
  | called worker' event =>
      by_cases hw : worker' = worker
      · subst hw
        rw [workerHistory, history_called_self] at held
        rcases List.suffix_cons_iff.mp held with heq | hs
        · exact .inr (List.cons.inj heq).2.symm
        · exact .inl hs
      · rw [workerHistory, history_called_ne _ hw] at held
        exact .inl held

section Ownership
variable {w w' : World} {t : Trace} {what : WhatHappened} {worker : Nat} {c : ExecutionClaim}
  {id : UUID}

theorem Moved.owned_before (hrun : Run w t) (hm : Moved w t what w')
    (held : Holds (workerHistory worker t) c) (owned : (w'.store.ownedExecution c).isSome = true) :
    (w.store.ownedExecution c).isSome = true := by
  rw [Store.ownedExecution_isSome_iff] at owned ⊢
  exact owned.of_steps hrun.sound.ledger (hm.steps hrun.sound)
    (hrun.claimsInOrder.issued c held.mem_claims)

theorem Run.owned_running {type : ResourceType} (hrun : Run w t)
    (held : Holds (workerHistory worker t) c) (htype : c.resourceType = some type)
    (resource : c.resourceId = some id) (owned : (w.store.ownedExecution c).isSome = true) :
    ∃ job r, w.store.ownedExecution c = some job ∧ job.lease.owner = some (type, some id) ∧
      w.store.lifecycle type id = some r ∧ r.status = .running := by
  obtain ⟨job, hjob⟩ := Option.isSome_iff_exists.mp owned
  obtain ⟨hrow, -, -, -, hrunning, current⟩ := Store.ownedExecution_eq_some.mp hjob
  have howner : job.lease.owner = some (type, some id) := by
    rw [hrun.claimsInOrder.resource c held.mem_claims job.lease (by simp [Store.ledger, hrow]),
      htype, resource]
    rfl
  obtain ⟨r, hr, -⟩ := current _ howner
  have hlifecycle : w.store.lifecycle type id = some r := by simpa [Store.ledger] using hr
  exact ⟨job, r, hjob, howner, hlifecycle,
    (Store.matches_lifecycle hrun.sound.ledger hrow current howner hlifecycle).2.1.trans hrunning⟩

theorem Run.owned_workspace (hrun : Run w t) (held : Holds (workerHistory worker t) c)
    (type : c.resourceType = some .workspace) (resource : c.resourceId = some id)
    (owned : (w.store.ownedExecution c).isSome = true) :
    ∃ job row, w.store.ownedExecution c = some job ∧
      job.lease.owner = some (.workspace, some id) ∧
      w.store.workspaces.lookup id = some row ∧ row.status = .running := by
  obtain ⟨job, r, hjob, howner, hlifecycle, hrunning⟩ :=
    hrun.owned_running held type resource owned
  obtain ⟨row, hw, rfl⟩ := Option.map_eq_some_iff.mp hlifecycle
  exact ⟨job, row, hjob, howner, hw, hrunning⟩

def EndsLease (s' : Store) : {β : Type} → Transaction β → β → Prop
  | _, .completeExecution c _ false, true => s'.ownedExecution c = none
  | _, _, _ => True

theorem Committed.endsLease {s s' : Store} {β : Type} {tr : Transaction β} {a : β}
    (hc : Committed s tr a s') : EndsLease s' tr a := by
  cases hc with
  | @completeExecution c mutate job s₁ owned mutated =>
      refine Option.eq_none_iff_forall_not_mem.mpr fun job' howned => ?_
      obtain ⟨hrow', -, -, -, hrunning, -⟩ := Store.ownedExecution_eq_some.mp howned
      rw [Store.settleExecution, Store.jobs_modifyResource] at hrow'
      obtain ⟨row, -, rfl⟩ := Option.map_eq_some_iff.mp
        ((Table.lookup_modify_self _ _ _).symm.trans hrow')
      cases hrunning
  | @completeStale _ _ delete => cases delete <;> trivial
  | _ => trivial

/-- While an attempt owns its workspace nobody else writes the revisions. -/
theorem Moved.revisions_kept (hrun : Run w t) (hm : Moved w t what w')
    (held : Holds (workerHistory worker t) c) (type : c.resourceType = some .workspace)
    (resource : c.resourceId = some id) (owned : (w'.store.ownedExecution c).isSome = true)
    {row' : Workspace} (hrow' : w'.store.workspaces.lookup id = some row') :
    ∃ row, w.store.workspaces.lookup id = some row ∧
      row'.parametersRevision = row.parametersRevision ∧
      row'.appliedParametersRevision = row.appliedParametersRevision := by
  obtain ⟨job, row, hjob, howner, hrow, hrunning⟩ :=
    hrun.owned_workspace held type resource (hm.owned_before hrun held owned)
  have same : w.store.workspaces.lookup id = some row' →
      ∃ row, w.store.workspaces.lookup id = some row ∧
        row'.parametersRevision = row.parametersRevision ∧
        row'.appliedParametersRevision = row.appliedParametersRevision :=
    fun h => ⟨row', h, rfl, rfl⟩
  rcases hm.store_cases with h | ⟨now, h⟩ | ⟨r, -, h⟩ | ⟨worker', β, tr, a, rfl, allowed, h⟩
  · exact same (h ▸ hrow')
  · rw [h] at hrow'
    exact same hrow'
  · cases h.configured with
    | undisturbed undisturbed =>
        obtain ⟨old, hold, hcolumns, -⟩ := undisturbed id row' hrow'
        exact ⟨old, hold, Workspace.parametersRevision_of_columns hcolumns,
          Workspace.appliedParametersRevision_of_columns hcolumns⟩
    | created resolved inserted =>
        rw [inserted] at hrow'
        rcases Table.lookup_insert_cases hrow' with ⟨rfl, -⟩ | ⟨-, hold⟩
        · exact absurd (hrun.sound.grounded.workspaces _ row hrow).1 (Nat.lt_irrefl _)
        · exact same hold
    | @updated payload id' found parameters hfound idle resolved rewritten others =>
        by_cases hid : id = id'
        · subst hid
          cases hrow.symm.trans hfound
          rw [hrunning] at idle
          cases idle
        · exact same (others id hid ▸ hrow')
  · obtain ⟨old, hold, hconverged⟩ := h.converged allowed hrun.sound.ledger hrow'
    obtain ⟨narrow, hnarrow, hcols⟩ := (Narrowed.committed h).workspaces id row' hrow'
    cases hold.symm.trans hnarrow
    cases hconverged with
    | kept applied => exact ⟨old, hold, congrArg (·.2.2.2.2.2.2.2) hcols, applied⟩
    | @completed c' job' _ _ _ howned htype hid =>
        -- The completing attempt is this one, and it has given its lease up.
        have hheld : Holds (workerHistory worker' t) c' := allowed.1
        obtain ⟨htype', hid'⟩ := hrun.owned_resource hheld howned htype
        have hsame : c = c' := hrun.claimsInOrder.owned_unique held.mem_claims hheld.mem_claims
          (.inl ⟨by simp [type], type.trans htype'.symm, by rw [resource, hid', hid]⟩)
          (Store.ownedExecution_isSome_iff.mp (hm.owned_before hrun held owned))
          (Store.ownedExecution_isSome_iff.mp (by simp [howned]))
        subst hsame
        have hended : w'.store.ownedExecution c = none := h.endsLease
        rw [hended] at owned
        cases owned

end Ownership

theorem Run.snapshotted {w : World} {t : Trace} (h : Run w t) : ∀ worker c id snapshot row,
    Holds (workerHistory worker t) c → c.resourceType = some .workspace → c.resourceId = some id →
    Read (workerHistory worker t) (.workspaceRemoteSnapshot id) snapshot →
    (w.store.ownedExecution c).isSome = true → w.store.workspaces.lookup id = some row →
    row.parametersRevision = snapshot.parametersRevision ∧
      row.appliedParametersRevision = snapshot.appliedParametersRevision := by
  refine h.induction (motive := fun w t => ∀ worker c id snapshot row,
    Holds (workerHistory worker t) c → c.resourceType = some .workspace → c.resourceId = some id →
    Read (workerHistory worker t) (.workspaceRemoteSnapshot id) snapshot →
    (w.store.ownedExecution c).isSome = true → w.store.workspaces.lookup id = some row →
    row.parametersRevision = snapshot.parametersRevision ∧
      row.appliedParametersRevision = snapshot.appliedParametersRevision) ?start ?move
  case start =>
    intro worker c id snapshot row _ _ _ hread
    exact absurd hread List.not_mem_nil
  case move =>
    intro w t what w' hrun hm ih worker c id snapshot row held type resource hread owned hrow
    rcases mem_workerHistory_cons.mp hread with rfl | hold
    · obtain ⟨hanswer, rfl⟩ := hm.read
      exact Store.workspaceRemoteSnapshot_revisions hanswer hrow
    · have hbefore : Holds (workerHistory worker t) c := by
        rcases held.before_last with hs | hnil
        · exact hs
        · exact absurd hold (hnil ▸ List.not_mem_nil)
      obtain ⟨old, hrow₀, hrevision, happlied⟩ :=
        hm.revisions_kept hrun hbefore type resource owned hrow
      have hfit := ih worker c id snapshot old hbefore type resource hold
        (hm.owned_before hrun hbefore owned) hrow₀
      exact ⟨hrevision.trans hfit.1, happlied.trans hfit.2⟩

theorem Run.applied_le {w : World} {t : Trace} (h : Run w t) : ∀ id row r,
    w.store.workspaces.lookup id = some row → row.appliedParametersRevision = some r →
    r ≤ row.parametersRevision := by
  refine h.induction (motive := fun w _ => ∀ id row r, w.store.workspaces.lookup id = some row →
    row.appliedParametersRevision = some r → r ≤ row.parametersRevision) ?start ?move
  case start =>
    intro id row r hrow
    cases hrow
  case move =>
    intro w t what w' hrun hm ih id row' r hrow' happlied
    rcases hm.store_cases with h | ⟨now, h⟩ | ⟨req, -, h⟩ | ⟨worker, β, tr, a, -, allowed, h⟩
    · exact ih id row' r (h ▸ hrow') happlied
    · rw [h] at hrow'
      exact ih id row' r hrow' happlied
    · cases h.configured with
      | undisturbed undisturbed =>
          obtain ⟨row, hrow, hcolumns, -⟩ := undisturbed id row' hrow'
          rw [Workspace.parametersRevision_of_columns hcolumns]
          exact ih id row r hrow
            ((Workspace.appliedParametersRevision_of_columns hcolumns).symm.trans happlied)
      | created resolved inserted =>
          rw [inserted] at hrow'
          rcases Table.lookup_insert_cases hrow' with ⟨-, rfl⟩ | ⟨-, hold⟩
          · cases happlied
          · exact ih id row' r hold happlied
      | @updated payload id' row parameters hfound idle resolved rewritten others =>
          by_cases hid : id = id'
          · subst hid
            cases rewritten.symm.trans hrow'
            have hle := ih id row r hfound happlied
            unfold WorkspaceFields.updated
            dsimp only
            split <;> omega
          · exact ih id row' r (others id hid ▸ hrow') happlied
    · obtain ⟨row, hrow, hconverged⟩ := h.converged allowed hrun.sound.ledger hrow'
      obtain ⟨narrow, hnarrow, hcols⟩ := (Narrowed.committed h).workspaces id row' hrow'
      cases hrow.symm.trans hnarrow
      have hrevision : row'.parametersRevision = row.parametersRevision :=
        congrArg (·.2.2.2.2.2.2.2) hcols
      rw [hrevision]
      cases hconverged with
      | kept applied => exact ih id row r hrow (applied.symm.trans happlied)
      | completed _ _ _ stored =>
          rw [stored] at happlied
          split at happlied
          · exact Nat.le_of_eq (Option.some.inj happlied).symm
          · exact ih id row r hrow happlied

/-- The attempt that completes a workspace has the revisions of its one snapshot. -/
theorem run_completed {steps : List Step} {l : Step} {worker : Nat} {c : ExecutionClaim}
    {workspaceId buildId : Option UUID} {applyParameters delete answer : Bool}
    (htrace : (run (steps ++ [l])).trace = ⟨(run steps).world, .called worker ⟨.transaction
      (.completeExecution c (.convergeWorkspace workspaceId buildId applyParameters) delete),
        .ok answer⟩⟩ :: (run steps).trace)
    (held : Holds (workerHistory worker (run steps).trace) c) (hstep : converges c.step) :
    ∃ snapshot, Snapshot (workerHistory worker (run steps).trace) c snapshot ∧
      if applyParameters then Built (workerHistory worker (run steps).trace) snapshot ∧
        Stored (workerHistory worker (run steps).trace) c
      else snapshot.appliedParametersRevision = some snapshot.parametersRevision :=
  run_converges (steps ++ [l]) ⟨[], (List.nil_append _).trans htrace.symm⟩ rfl held hstep

theorem run_success (steps : List Step) : ∀ id row,
    (run steps).world.store.workspaces.lookup id = some row → row.status = .success →
    row.appliedParametersRevision = some row.parametersRevision := by
  induction steps using List.reverseRecOn with
  | nil =>
      intro id row hrow
      cases hrow
  | append_singleton steps l ih =>
      intro id row' hrow' hsuccess
      rcases run_snoc steps l with ⟨hsame, -⟩ | ⟨what, hm, -, htrace⟩
      · exact ih id row' (hsame ▸ hrow') hsuccess
      have hrun := run_reaches steps
      rcases hm.store_cases with h | ⟨now, h⟩ | ⟨req, -, h⟩ | ⟨worker, β, tr, a, rfl, allowed, h⟩
      · exact ih id row' (h ▸ hrow') hsuccess
      · rw [h] at hrow'
        exact ih id row' hrow' hsuccess
      · cases h.configured with
        | undisturbed undisturbed =>
            obtain ⟨row, hrow, hcolumns, hlifecycle⟩ := undisturbed id row' hrow'
            rw [Workspace.parametersRevision_of_columns hcolumns,
              Workspace.appliedParametersRevision_of_columns hcolumns]
            refine ih id row hrow ?_
            rcases hlifecycle with hkept | ⟨-, hpending⟩
            · rw [← hkept]
              exact hsuccess
            · rw [hsuccess] at hpending
              cases hpending
        | created resolved inserted =>
            rw [inserted] at hrow'
            rcases Table.lookup_insert_cases hrow' with ⟨-, rfl⟩ | ⟨-, hold⟩
            · cases hsuccess
            · exact ih id row' hold hsuccess
        | @updated payload id' row parameters hfound idle resolved rewritten others =>
            by_cases hid : id = id'
            · subst hid
              cases rewritten.symm.trans hrow'
              cases hsuccess
            · exact ih id row' (others id hid ▸ hrow') hsuccess
      · obtain ⟨row, hrow, hconverged⟩ := h.converged allowed hrun.sound.ledger hrow'
        obtain ⟨narrow, hnarrow, hcols⟩ := (Narrowed.committed h).workspaces id row' hrow'
        cases hrow.symm.trans hnarrow
        have hrevision : row'.parametersRevision = row.parametersRevision :=
          congrArg (·.2.2.2.2.2.2.2) hcols
        rw [hrevision]
        cases hconverged with
        | kept applied settled => rw [applied, ih id row hrow (settled hsuccess)]
        | @completed c job _ _ applyParameters owned htype hid stored =>
            rw [stored]
            cases applyParameters with
            | true => rfl
            | false =>
                -- Nothing was built, as the snapshot had its parameters applied.
                obtain ⟨held, hconcludes⟩ := allowed
                obtain ⟨htype', hid'⟩ := hrun.owned_resource held owned htype
                have hstep : converges c.step := by
                  cases hconcludes
                  assumption
                obtain ⟨snapshot, ⟨id', hid'', hread⟩, hcurrent⟩ := run_completed htrace held hstep
                obtain rfl : id = id' := by
                  rw [hid', hid] at hid''
                  exact Option.some.inj hid''
                obtain ⟨hrev, happlied⟩ := hrun.snapshotted worker c id snapshot row held htype' hid''
                  hread (by simp [owned]) hrow
                simpa [hrev, happlied] using hcurrent

theorem run_reads_once {steps : List Step} {worker : Nat} {c : ExecutionClaim}
    (held : Holds (workerHistory worker (run steps).trace) c) (hstep : converges c.step)
    {id id' : UUID} {snapshot snapshot' : WorkspaceRemoteSnapshot}
    (hread : Read (workerHistory worker (run steps).trace) (.workspaceRemoteSnapshot id) snapshot)
    (hread' : Read (workerHistory worker (run steps).trace) (.workspaceRemoteSnapshot id') snapshot') :
    c.resourceId = some id ∧ snapshot' = snapshot := by
  -- Each read is the second operation of its worker.
  have second : ∀ {id : UUID} {snapshot : WorkspaceRemoteSnapshot},
      Read (workerHistory worker (run steps).trace) (.workspaceRemoteSnapshot id) snapshot →
      c.resourceId = some id ∧ [(⟨.query (.workspaceRemoteSnapshot id), .ok snapshot⟩ : WorkerEvent),
        claimEvent c] <:+ workerHistory worker (run steps).trace := by
    intro id snapshot hread
    obtain ⟨w, rest, hs, held'⟩ := held.before hread query_ne_transaction
    obtain ⟨hfirst, hid⟩ := run_converges steps hs rfl held' hstep
    refine ⟨hid, ?_⟩
    rw [← hfirst, ← history_called_self (w := w) (t := rest) worker]
    exact hs.filterMap _
  obtain ⟨hid, hs⟩ := second hread
  obtain ⟨hid', hs'⟩ := second hread'
  refine ⟨hid, ?_⟩
  obtain rfl : id = id' := Option.some.inj (hid.symm.trans hid')
  have heq := (List.suffix_of_suffix_length_le hs hs' (Nat.le_refl _)).eq_of_length rfl
  simp only [List.cons.injEq, Event.mk.injEq, heq_eq_eq, true_and, and_true, Except.ok.injEq] at heq
  exact heq.symm

theorem Run.last {w w' : World} {t : Trace} {what : WhatHappened} (h : Run w' (⟨w, what⟩ :: t)) :
    Run w t ∧ Moved w t what w' := by
  cases h with
  | called worker o r before allowed =>
      exact ⟨before, .called worker allowed (World.performed _ r o) ⟨r, rfl⟩⟩
  | changed e before => exact ⟨before, .changed (World.changed _ e) rfl⟩

/-- A completion that reports success stored the revision it found. -/
def StoresRevision (s s' : Store) : {β : Type} → Transaction β → β → Prop
  | _, .completeExecution c (.convergeWorkspace _ _ applyParameters) delete, answer =>
      applyParameters = true → delete = false → answer = true →
      ∃ job, s.ownedExecution c = some job ∧ ∀ id row, job.resourceType = some .workspace →
        job.resourceId = some id → s.workspaces.lookup id = some row →
        ∃ row', s'.workspaces.lookup id = some row' ∧
          row'.appliedParametersRevision = some row.parametersRevision
  | _, _, _ => True

theorem Committed.storesRevision {s s' : Store} {β : Type} {tr : Transaction β} {a : β}
    (hc : Committed s tr a s') : StoresRevision s s' tr a := by
  cases hc with
  | @completeExecution c mutate job s₁ owned mutated =>
      cases mutated with
      | @convergeWorkspace workspaceId buildId applyParameters id f type resource same stored =>
          rintro rfl - -
          refine ⟨job, owned, fun id' row _ hid hrow => ?_⟩
          obtain rfl : id = id' := Option.some.inj (resource.symm.trans hid)
          subst stored
          have hlookup : ∀ {f : Workspace → Workspace},
              (Store.settleExecution { s with workspaces := s.workspaces.modify id f }
                c job).workspaces.lookup id = some { f row with
                  toLifecycle := { (f row).toLifecycle with status := .success, step := none } } := by
            intro f
            rw [Store.settleExecution, Store.modifyResource, type, resource]
            change (Table.modify (Table.modify _ _ _) _ _).lookup _ = _
            rw [Table.lookup_modify_self, Table.lookup_modify_self, hrow]
            rfl
          exact ⟨_, hlookup, rfl⟩
      | keepWorkspace other =>
          rintro - - -
          refine ⟨job, owned, fun id row htype hid _ => ?_⟩
          rcases other with hother | hother
          · exact absurd htype hother
          · rw [hid] at hother
            cases hother
      | _ => trivial
  | @completeStale _ mutate delete =>
      cases mutate with
      | convergeWorkspace => rintro _ _ ⟨⟩
      | _ => trivial
  | @completeDeletion _ mutate =>
      cases mutate with
      | convergeWorkspace => rintro _ ⟨⟩
      | _ => trivial
  | _ => trivial

def OnWorkspace (s : Store) : {β : Type} → Transaction β → β → Prop
  | _, .storeWorkspaceRemoteIds c _ _, true => ∃ job, s.ownedExecution c = some job ∧
      job.resourceType = some .workspace
  | _, _, _ => True

theorem Committed.onWorkspace {s s' : Store} {β : Type} {tr : Transaction β} {a : β}
    (hc : Committed s tr a s') : OnWorkspace s tr a := by
  cases hc with
  | storeWorkspaceRemoteIds owned type => exact ⟨_, owned, type⟩
  | _ => trivial

theorem Run.stored_workspace {w : World} {t : Trace} (h : Run w t) {worker : Nat}
    {c : ExecutionClaim} (hs : Stored (workerHistory worker t) c) :
    c.resourceType = some .workspace := by
  obtain ⟨workspaceId, buildId, hwrote⟩ := hs
  obtain ⟨v, hv⟩ := mem_history.mp hwrote
  obtain ⟨later, rest, rfl⟩ := List.append_of_mem hv
  obtain ⟨hrun, ⟨v', hm⟩, -⟩ := h.entry (List.suffix_append _ _)
  obtain ⟨held, hcommitted⟩ := hm.wrote
  obtain ⟨job, owned, htype⟩ := hcommitted.onWorkspace
  exact (hrun.owned_resource held owned htype).1

/-- The applied revision is truthful in every run. -/
theorem applied_revisions_are_truthful (steps : List Step) :
    let s := (run steps).world.store
    let t := (run steps).trace
    -- It never exceeds the revision, and a workspace in success has both equal.
    (∀ id w r, s.workspaces.lookup id = some w → w.appliedParametersRevision = some r →
      r ≤ w.parametersRevision) ∧
    (∀ id w, s.workspaces.lookup id = some w → w.status = .success →
      w.appliedParametersRevision = some w.parametersRevision) ∧
    -- A completion stores the revision of the only snapshot its attempt read and built from.
    ∀ l worker c workspaceId buildId, (run (steps ++ [l])).trace = ⟨(run steps).world,
        .called worker ⟨.transaction (.completeExecution c
          (.convergeWorkspace workspaceId buildId true) false), .ok true⟩⟩ :: t →
      ∃ id snapshot w, c.resourceId = some id ∧
        Read (workerHistory worker t) (.workspaceRemoteSnapshot id) snapshot ∧
        (∀ id' snapshot', Read (workerHistory worker t) (.workspaceRemoteSnapshot id') snapshot' →
          snapshot' = snapshot) ∧
        Built (workerHistory worker t) snapshot ∧
        (run (steps ++ [l])).world.store.workspaces.lookup id = some w ∧
        w.appliedParametersRevision = some snapshot.parametersRevision := by
  intro s t
  have hrun := run_reaches steps
  refine ⟨hrun.applied_le, run_success steps, ?_⟩
  intro l worker c workspaceId buildId htrace
  have hnext := run_reaches (steps ++ [l])
  rw [htrace] at hnext
  obtain ⟨-, hm⟩ := hnext.last
  obtain ⟨⟨held, hconcludes⟩, hcommitted⟩ := hm.wrote
  have hstep : converges c.step := by
    cases hconcludes
    assumption
  obtain ⟨job, owned, hstores⟩ := hcommitted.storesRevision rfl rfl rfl
  obtain ⟨snapshot, ⟨id, hid, hread⟩, hbuilt, hstored⟩ := run_completed htrace held hstep
  have htype := hrun.stored_workspace hstored
  obtain ⟨job', row, howned, howner, hrow, -⟩ :=
    hrun.owned_workspace held htype hid (by simp [owned])
  cases owned.symm.trans howned
  obtain ⟨hjobType, hjobId⟩ := JobExecution.lease_owner.mp howner
  obtain ⟨row', hrow', happlied⟩ := hstores id row hjobType hjobId hrow
  have hfit := hrun.snapshotted worker c id snapshot row held htype hid hread (by simp [owned]) hrow
  refine ⟨id, snapshot, row', hid, hread, ?_, hbuilt, hrow', happlied.trans (by rw [hfit.1])⟩
  exact fun id' snapshot' hread' => (run_reads_once held hstep hread hread').2

end CoderManager
