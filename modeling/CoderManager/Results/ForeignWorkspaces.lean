import CoderManager.Discipline.Attempts

/-!
# Remote workspaces of other templates

Creation and update check the template of the remote workspace they found before they
touch it. Deletion does not, so it asks for the deletion of whatever the lookup by owner
and name finds.
-/
namespace CoderManager
open Programs Tables

def managesWorkspace (step : StepName) : Prop :=
  step = .workspaceCreateStep01 ∨ step = .workspaceUpdateStep01 ∨ step = .workspaceDeleteStep01

def Op.touches : {β : Type} → Op β → Option (InstanceUrl × UUID)
  | _, .call (.updateWorkspaceName url workspaceId _) => some (url, workspaceId)
  | _, .call (.createWorkspaceStartBuild url workspaceId _) => some (url, workspaceId)
  | _, .call (.createWorkspaceDeleteBuild url workspaceId) => some (url, workspaceId)
  | _, _ => none

/-- The remote workspace that a lookup or a creation was answered with. -/
def located : WorkerEvent → Option (InstanceUrl × CoderWorkspace)
  | ⟨.call (.workspace url _), .ok (some remote)⟩ => some (url, remote)
  | ⟨.call (.workspaceByOwnerAndName url _ _), .ok (some remote)⟩ => some (url, remote)
  | ⟨.call (.createWorkspace url _ _ _ _), .ok remote⟩ => some (url, remote)
  | _ => none

/-- The remote workspace an attempt works on: the last one it was told of. -/
def foundRemote (h : WorkerHistory) : Option (InstanceUrl × CoderWorkspace) := h.findSome? located

def justTold (h : WorkerHistory) : Option (InstanceUrl × CoderWorkspace) := h.head?.bind located

def snapshotRead (c : ExecutionClaim) : WorkerEvent → Option WorkspaceRemoteSnapshot
  | ⟨.query (.workspaceRemoteSnapshot id), .ok snapshot⟩ =>
      if c.resourceId = some id then some snapshot else none
  | _ => none

def readSnapshot (c : ExecutionClaim) (h : WorkerHistory) : Option WorkspaceRemoteSnapshot :=
  h.findSome? (snapshotRead c)

/-- The latest build is no deletion under way, so that a deletion builds once more. -/
def CoderWorkspace.deletesAgain (remote : CoderWorkspace) : Prop :=
  remote.latestBuildTransition ≠ .delete ∨ remote.status = .failed ∨ remote.status = .canceled ∨
    remote.status = .canceling

instance (remote : CoderWorkspace) : Decidable remote.deletesAgain :=
  inferInstanceAs (Decidable (_ ∨ _))

/-- What an attempt touches it was told of, and it is of the template of its snapshot unless a
deletion was just told of it. A deletion goes on with what it was told of, whatever its
template. -/
structure TouchRule (h : WorkerHistory) (c : ExecutionClaim) {β : Type} (o : Op β) : Prop where
  touched : ∀ target, o.touches = some target → ∃ snapshot remote,
    readSnapshot c h = some snapshot ∧ foundRemote h = some (snapshot.instanceUrl, remote) ∧
    target = (snapshot.instanceUrl, remote.id) ∧
    (remote.templateId = some snapshot.coderTemplateId ∨ c.step = .workspaceDeleteStep01 ∧
      justTold h = some (snapshot.instanceUrl, remote) ∧ remote.deletesAgain)
  told : c.step = .workspaceDeleteStep01 → ∀ target, justTold h = some target →
    target.2.deletesAgain → o.touches = some (target.1, target.2.id)

def touchRule : AttemptRule := fun h c _ o => TouchRule h c o

section Attempts
variable {h : WorkerHistory} {c : ExecutionClaim} {snapshot : WorkspaceRemoteSnapshot}

theorem TouchRule.quiet {β : Type} {o : Op β} (untouched : o.touches = none)
    (untold : c.step = .workspaceDeleteStep01 → ∀ target, justTold h = some target →
      ¬target.2.deletesAgain) : TouchRule h c o where
  touched := by
    intro target htarget
    rw [untouched] at htarget
    cases htarget
  told := by
    intro hstep target htold hagain
    exact absurd hagain (untold hstep target htold)

/-- The attempt has read its workspace. -/
structure HasRead (c : ExecutionClaim) (snapshot : WorkspaceRemoteSnapshot) (h : WorkerHistory) :
    Prop where
  holds : Holds h c
  read : readSnapshot c h = some snapshot

theorem HasRead.cons (hr : HasRead c snapshot h) {e : WorkerEvent} (he : snapshotRead c e = none) :
    HasRead c snapshot (e :: h) := by
  refine ⟨hr.holds.cons e, ?_⟩
  rw [readSnapshot, List.findSome?_cons, he]
  exact hr.read

theorem foundRemote_cons {e : WorkerEvent} (he : located e = none) :
    foundRemote (e :: h) = foundRemote h := by
  rw [foundRemote, List.findSome?_cons, he]
  rfl

theorem foundRemote_of_told {target : InstanceUrl × CoderWorkspace}
    (htold : justTold h = some target) : foundRemote h = some target := by
  cases h with
  | nil => cases htold
  | cons e h =>
      have he : located e = some target := htold
      rw [foundRemote, List.findSome?_cons, he]

/-- The attempt holds its claim, and a deletion was not just told of a workspace to delete. -/
structure Idle (c : ExecutionClaim) (h : WorkerHistory) : Prop where
  holds : Holds h c
  untold : c.step = .workspaceDeleteStep01 → ∀ target, justTold h = some target →
    ¬target.2.deletesAgain

theorem Idle.of_untold (hc : Holds h c) (untold : justTold h = none) : Idle c h := by
  refine ⟨hc, fun _ target htold => ?_⟩
  cases untold.symm.trans htold

theorem Idle.guard (hi : Idle c h) {β : Type} {o : Op β} (untouched : o.touches = none) :
    (attempts managesWorkspace touchRule).guard h o :=
  attempts_guard hi.holds (.quiet untouched hi.untold)

theorem Idle.cons (hc : Holds h c) {e : WorkerEvent} (he : located e = none) : Idle c (e :: h) :=
  .of_untold (hc.cons e) he

theorem Idle.attempt {p : Worker TaskStatus}
    (hp : Obeys (attempts managesWorkspace touchRule) p [claimEvent c] (fun _ _ => True)
      fun _ h => Idle c h) : Attempt managesWorkspace touchRule p c :=
  hp.mono (fun _ _ _ => trivial) fun _ _ hi => .quiet rfl hi.untold

theorem findRemoteWorkspace_tells (hr : HasRead c snapshot h) (untold : justTold h = none) :
    Obeys (attempts managesWorkspace touchRule) (findRemoteWorkspace snapshot) h
      (fun found h' => HasRead c snapshot h' ∧
        justTold h' = found.map fun remote => (snapshot.instanceUrl, remote))
      fun _ h' => Idle c h' := by
  have byName : ∀ {h'}, HasRead c snapshot h' → justTold h' = none →
      Obeys (attempts managesWorkspace touchRule) (request (.workspaceByOwnerAndName
        snapshot.instanceUrl snapshot.username snapshot.name)) h'
        (fun found h' => HasRead c snapshot h' ∧
          justTold h' = found.map fun remote => (snapshot.instanceUrl, remote))
        fun _ h' => Idle c h' := by
    intro h' hr' untold'
    have hi : Idle c h' := .of_untold hr'.holds untold'
    refine obeys_perform.mpr ⟨hi.guard rfl, fun found _ => ⟨hr'.cons rfl, ?_⟩,
      fun _ _ => .cons hr'.holds rfl⟩
    cases found <;> rfl
  unfold findRemoteWorkspace
  cases snapshot.coderWorkspaceId with
  | none => exact byName hr untold
  | some workspaceId =>
      have hi : Idle c h := .of_untold hr.holds untold
      refine obeys_bind.mpr (obeys_perform.mpr ⟨hi.guard rfl, fun found _ => ?_,
        fun _ _ => .cons hr.holds rfl⟩)
      cases found with
      | some remote => exact obeys_pure.mpr ⟨hr.cons rfl, rfl⟩
      | none => exact byName (hr.cons rfl) rfl

theorem found_bind {k : WorkspaceRemoteSnapshot → Option CoderWorkspace → Worker TaskStatus}
    (rest : ∀ snapshot found h, HasRead c snapshot h →
      (justTold h = found.map fun remote => (snapshot.instanceUrl, remote)) →
      Obeys (attempts managesWorkspace touchRule) (k snapshot found) h (fun _ _ => True)
        fun _ h => Idle c h) :
    Attempt managesWorkspace touchRule (do
      let workspaceId ← liftExcept c.requiredResourceId
      let snapshot ← query (.workspaceRemoteSnapshot workspaceId)
      request (.authenticatePreparedAdmin snapshot.instanceUrl snapshot.password)
      let found ← findRemoteWorkspace snapshot
      k snapshot found) c := by
  have hstart : Idle c [claimEvent c] := .of_untold Holds.start rfl
  refine Idle.attempt ?_
  cases hid : c.resourceId with
  | none =>
      simp only [ExecutionClaim.requiredResourceId, hid, liftExcept]
      exact hstart
  | some id =>
      simp only [ExecutionClaim.requiredResourceId, hid, liftExcept]
      refine obeys_bind.mpr (obeys_pure.mpr ?_)
      refine obeys_bind.mpr (obeys_perform.mpr ⟨hstart.guard rfl, fun snapshot _ => ?_,
        fun _ _ => .cons Holds.start rfl⟩)
      have hread : HasRead c snapshot [⟨.query (.workspaceRemoteSnapshot id), .ok snapshot⟩,
          claimEvent c] := by
        refine ⟨Holds.start.cons _, ?_⟩
        rw [readSnapshot, List.findSome?_cons, snapshotRead, if_pos hid]
      have hidle : Idle c [⟨.query (.workspaceRemoteSnapshot id), .ok snapshot⟩, claimEvent c] :=
        .cons Holds.start rfl
      refine obeys_bind.mpr (obeys_perform.mpr ⟨hidle.guard rfl, fun _ _ => ?_,
        fun _ _ => .cons hidle.holds rfl⟩)
      refine obeys_bind.mpr ((findRemoteWorkspace_tells (hread.cons rfl) rfl).mono ?_
        fun _ _ hi => hi)
      rintro found h ⟨hr, htold⟩
      exact rest snapshot found h hr htold

theorem waitWorkspaceBuild_idle {url : InstanceUrl} {successStatus : BuildStatus} (fuel : Nat)
    (build : CoderWorkspaceBuild) (hi : Idle c h) :
    Obeys (attempts managesWorkspace touchRule)
      (waitWorkspaceBuild url successStatus (workspaceHeartbeat c) fuel build) h
      (fun _ h' => Idle c h') fun _ h' => Idle c h' := by
  induction fuel generalizing build h with
  | zero => exact trivial
  | succ fuel ih =>
      unfold waitWorkspaceBuild
      split
      · exact hi
      · split
        · exact hi
        · refine obeys_bind.mpr (obeys_perform.mpr ⟨hi.guard rfl, fun ready _ => ?_,
            fun _ _ => .cons hi.holds rfl⟩)
          have hi₁ : Idle c (⟨.call .beforeDeadline, .ok ready⟩ :: h) := .cons hi.holds rfl
          cases ready with
          | false => exact hi₁
          | true =>
              refine obeys_bind.mpr (obeys_bind.mpr (obeys_perform.mpr ⟨hi₁.guard rfl,
                fun beat _ => ?_, fun _ _ => .cons hi₁.holds rfl⟩))
              have hi₂ : Idle c (⟨.transaction (.heartbeatExecution c), .ok beat⟩ ::
                  ⟨.call .beforeDeadline, .ok true⟩ :: h) := .cons hi₁.holds rfl
              exact obeys_bind.mpr (obeys_perform.mpr ⟨hi₂.guard rfl,
                fun build _ => ih build (.cons hi₂.holds rfl), fun _ _ => .cons hi₂.holds rfl⟩)

/-- An attempt that is no deletion has found a remote workspace of the right template. -/
structure Matched (c : ExecutionClaim) (snapshot : WorkspaceRemoteSnapshot) (remote : CoderWorkspace)
    (h : WorkerHistory) : Prop extends HasRead c snapshot h where
  kept : c.step ≠ .workspaceDeleteStep01
  found : foundRemote h = some (snapshot.instanceUrl, remote)
  matching : remote.templateId = some snapshot.coderTemplateId

theorem Matched.idle {remote : CoderWorkspace} (hm : Matched c snapshot remote h) : Idle c h :=
  ⟨hm.holds, fun hstep => absurd hstep hm.kept⟩

theorem Matched.cons {remote : CoderWorkspace} (hm : Matched c snapshot remote h) {e : WorkerEvent}
    (hlocated : located e = none) (hread : snapshotRead c e = none) :
    Matched c snapshot remote (e :: h) where
  toHasRead := hm.toHasRead.cons hread
  kept := hm.kept
  found := (foundRemote_cons hlocated).trans hm.found
  matching := hm.matching

theorem Matched.guard {remote : CoderWorkspace} (hm : Matched c snapshot remote h) {β : Type}
    {o : Op β} (ho : o.touches = some (snapshot.instanceUrl, remote.id)) :
    (attempts managesWorkspace touchRule).guard h o := by
  refine attempts_guard hm.holds ⟨?_, fun hstep => absurd hstep hm.kept⟩
  intro target htarget
  cases ho.symm.trans htarget
  exact ⟨snapshot, remote, hm.read, hm.found, rfl, .inl hm.matching⟩

theorem requireMatchingTemplate_matches {remote : CoderWorkspace}
    (hkept : c.step ≠ .workspaceDeleteStep01) (hr : HasRead c snapshot h)
    (hfound : foundRemote h = some (snapshot.instanceUrl, remote)) :
    Obeys (attempts managesWorkspace touchRule) (requireMatchingTemplate remote snapshot) h
      (fun _ h' => Matched c snapshot remote h') fun _ h' => Idle c h' := by
  unfold requireMatchingTemplate
  split
  · exact ⟨hr.holds, fun hstep => absurd hstep hkept⟩
  · rename_i hmatch
    exact ⟨hr, hkept, hfound, not_not.mp hmatch⟩

theorem startBuild_matched {remote : CoderWorkspace} (hm : Matched c snapshot remote h) :
    Obeys (attempts managesWorkspace touchRule) (request (.createWorkspaceStartBuild
      snapshot.instanceUrl remote.id snapshot.parameters)) h
      (fun _ h' => Idle c h') fun _ h' => Idle c h' :=
  obeys_perform.mpr ⟨hm.guard rfl, fun _ _ => .cons hm.holds rfl, fun _ _ => .cons hm.holds rfl⟩

theorem creationBuild_matched {remote : CoderWorkspace} (hm : Matched c snapshot remote h)
    (created : Bool) :
    Obeys (attempts managesWorkspace touchRule) (Tasks.creationBuild snapshot remote created) h
      (fun _ h' => Idle c h') fun _ h' => Idle c h' := by
  have choose : ∀ current h', Matched c snapshot remote h' →
      Obeys (attempts managesWorkspace touchRule)
        (if current ≠ snapshot.parameters ∨
            Tasks.restartStatuses.contains remote.latestBuild.status then
          request (.createWorkspaceStartBuild snapshot.instanceUrl remote.id snapshot.parameters)
        else pure remote.latestBuild) h' (fun _ h'' => Idle c h'') fun _ h'' => Idle c h'' := by
    intro current h' hm'
    split
    · exact startBuild_matched hm'
    · exact hm'.idle
  cases created with
  | true => exact hm.idle
  | false =>
      by_cases ht : remote.latestBuild.transition = .start
      · simp only [Tasks.creationBuild, ht, if_true]
        exact obeys_bind.mpr (obeys_perform.mpr ⟨hm.idle.guard rfl,
          fun current _ => choose current _ (hm.cons rfl rfl), fun _ _ => .cons hm.holds rfl⟩)
      · simp only [Tasks.creationBuild, ht, if_false]
        exact choose [] h hm

theorem updateBuild_matched {remote : CoderWorkspace} (hm : Matched c snapshot remote h) :
    Obeys (attempts managesWorkspace touchRule) (Tasks.updateBuild snapshot remote) h
      (fun _ h' => Idle c h') fun _ h' => Idle c h' := by
  unfold Tasks.updateBuild
  extract_lets latest restart
  split
  · refine obeys_bind.mpr (obeys_perform.mpr ⟨hm.idle.guard rfl, fun current _ => ?_,
      fun _ _ => .cons hm.holds rfl⟩)
    split
    · exact .cons hm.holds rfl
    · exact startBuild_matched (hm.cons rfl rfl)
  · exact startBuild_matched hm

/-- Storing the remote ids, waiting for the build and concluding touch nothing. -/
theorem await_idle {finish : CoderWorkspaceBuild → Worker TaskStatus}
    (hfinish : ∀ build h', Idle c h' → Obeys (attempts managesWorkspace touchRule) (finish build) h'
      (fun _ _ => True) fun _ h'' => Idle c h'')
    (remote : CoderWorkspace) (build : CoderWorkspaceBuild) (url : InstanceUrl)
    (successStatus : BuildStatus) (fuel : Nat) (hi : Idle c h) :
    Obeys (attempts managesWorkspace touchRule) (do
      if ← transact (.storeWorkspaceRemoteIds c remote.id build.id) then
        let build ← waitWorkspaceBuild url successStatus (workspaceHeartbeat c) fuel build
        finish build
      else return .noop) h (fun _ _ => True) fun _ h' => Idle c h' := by
  refine obeys_bind.mpr (obeys_perform.mpr ⟨hi.guard rfl, fun stored _ => ?_,
    fun _ _ => .cons hi.holds rfl⟩)
  cases stored with
  | false => exact trivial
  | true =>
      refine obeys_bind.mpr ((waitWorkspaceBuild_idle fuel build (.cons hi.holds rfl)).mono ?_
        fun _ _ hi => hi)
      exact fun build h' hi' => hfinish build h' hi'

theorem deletionBuild_touches {remote : CoderWorkspace} (hr : HasRead c snapshot h)
    (hstep : c.step = .workspaceDeleteStep01)
    (htold : justTold h = some (snapshot.instanceUrl, remote)) :
    Obeys (attempts managesWorkspace touchRule) (Tasks.deletionBuild snapshot remote) h
      (fun _ h' => Idle c h') fun _ h' => Idle c h' := by
  have hbuild : Tasks.deletionBuild snapshot remote = if remote.deletesAgain then
      request (.createWorkspaceDeleteBuild snapshot.instanceUrl remote.id)
    else pure remote.latestBuild := rfl
  by_cases hagain : remote.deletesAgain
  · rw [hbuild, if_pos hagain]
    refine obeys_perform.mpr ⟨attempts_guard hr.holds ?_, fun _ _ => .cons hr.holds rfl,
      fun _ _ => .cons hr.holds rfl⟩
    constructor
    · intro target htarget
      cases htarget
      exact ⟨snapshot, remote, hr.read, foundRemote_of_told htold, rfl, .inr ⟨hstep, htold, hagain⟩⟩
    · intro _ target htarget _
      cases htold.symm.trans htarget
      rfl
  · rw [hbuild, if_neg hagain]
    refine ⟨hr.holds, fun _ target htarget => ?_⟩
    cases htold.symm.trans htarget
    exact hagain

theorem complete_idle {mutate : Mutation} (hi : Idle c h) :
    Obeys (attempts managesWorkspace touchRule) (complete c mutate) h (fun _ _ => True)
      fun _ h' => Idle c h' :=
  obeys_bind.mpr (obeys_perform.mpr ⟨hi.guard rfl, fun _ _ => trivial, fun _ _ => .cons hi.holds rfl⟩)

theorem completeWorkspaceDeletion_idle (hi : Idle c h) :
    Obeys (attempts managesWorkspace touchRule) (completeWorkspaceDeletion c) h (fun _ _ => True)
      fun _ h' => Idle c h' :=
  obeys_bind.mpr (obeys_perform.mpr ⟨hi.guard rfl, fun _ _ => trivial, fun _ _ => .cons hi.holds rfl⟩)

end Attempts

section Steps
variable {c : ExecutionClaim}

theorem createWorkspace_touches (fuel : Nat) (hstep : c.step = .workspaceCreateStep01) :
    Attempt managesWorkspace touchRule (Tasks.createWorkspace fuel c) c := by
  have hkept : c.step ≠ .workspaceDeleteStep01 := by simp [hstep]
  refine found_bind fun snapshot found h hr htold => ?_
  have converge : ∀ remote : CoderWorkspace, ∀ h', HasRead c snapshot h' →
      foundRemote h' = some (snapshot.instanceUrl, remote) →
      Obeys (attempts managesWorkspace touchRule) (do
        requireMatchingTemplate remote snapshot
        let build ← Tasks.creationBuild snapshot remote found.isNone
        if ← transact (.storeWorkspaceRemoteIds c remote.id build.id) then
          let build ← waitWorkspaceBuild snapshot.instanceUrl .running (workspaceHeartbeat c) fuel
            build
          completeWorkspace c (some remote.id) (some build.id) true
        else return .noop) h' (fun _ _ => True) fun _ h'' => Idle c h'' := by
    intro remote h' hr' hfound
    refine obeys_bind.mpr ((requireMatchingTemplate_matches hkept hr' hfound).mono ?_
      fun _ _ hi => hi)
    intro _ h₁ hm
    refine obeys_bind.mpr ((creationBuild_matched hm found.isNone).mono ?_ fun _ _ hi => hi)
    exact fun build h₂ hi => await_idle (fun _ _ hi' => complete_idle hi') remote build _ _ _ hi
  cases found with
  | some remote => exact converge remote h hr (foundRemote_of_told htold)
  | none =>
      have hi : Idle c h := ⟨hr.holds, fun hdelete => absurd hdelete hkept⟩
      refine obeys_bind.mpr (obeys_perform.mpr ⟨hi.guard rfl, fun remote _ => ?_,
        fun _ _ => .cons hr.holds rfl⟩)
      exact converge remote _ (hr.cons rfl) (foundRemote_of_told rfl)

theorem updateWorkspace_touches (fuel : Nat) (hstep : c.step = .workspaceUpdateStep01) :
    Attempt managesWorkspace touchRule (Tasks.updateWorkspace fuel c) c := by
  have hkept : c.step ≠ .workspaceDeleteStep01 := by simp [hstep]
  refine found_bind fun snapshot found h hr htold => ?_
  cases found with
  | none => exact ⟨hr.holds, fun hdelete => absurd hdelete hkept⟩
  | some remote =>
      have converge : ∀ h', Matched c snapshot remote h' →
          Obeys (attempts managesWorkspace touchRule) (do
            if snapshot.appliedParametersRevision ≠ some snapshot.parametersRevision then
              let build ← Tasks.updateBuild snapshot remote
              if ← transact (.storeWorkspaceRemoteIds c remote.id build.id) then
                let build ← waitWorkspaceBuild snapshot.instanceUrl .running (workspaceHeartbeat c)
                  fuel build
                completeWorkspace c (some remote.id) (some build.id) true
              else return .noop
            else completeWorkspace c (some remote.id) none false) h' (fun _ _ => True)
            fun _ h'' => Idle c h'' := by
        intro h' hm
        split
        · refine obeys_bind.mpr ((updateBuild_matched hm).mono ?_ fun _ _ hi => hi)
          exact fun build h₂ hi => await_idle (fun _ _ hi' => complete_idle hi') remote build _ _ _ hi
        · exact complete_idle hm.idle
      refine obeys_bind.mpr ((requireMatchingTemplate_matches hkept hr
        (foundRemote_of_told htold)).mono ?_ fun _ _ hi => hi)
      intro _ h₁ hm
      by_cases hname : remote.name = snapshot.name
      · simp only [hname, ne_eq, not_true_eq_false, if_false]
        exact converge h₁ hm
      · simp only [hname, ne_eq, not_false_eq_true, if_true]
        exact obeys_bind.mpr (obeys_perform.mpr ⟨hm.guard rfl,
          fun _ _ => converge _ (hm.cons rfl rfl), fun _ _ => .cons hm.holds rfl⟩)

theorem deleteWorkspace_touches (fuel : Nat) (hstep : c.step = .workspaceDeleteStep01) :
    Attempt managesWorkspace touchRule (Tasks.deleteWorkspace fuel c) c := by
  refine found_bind fun snapshot found h hr htold => ?_
  cases found with
  | none => exact completeWorkspaceDeletion_idle (.of_untold hr.holds htold)
  | some remote =>
      refine obeys_bind.mpr ((deletionBuild_touches hr hstep htold).mono ?_ fun _ _ hi => hi)
      exact fun build h' hi => await_idle (fun _ _ hi' => completeWorkspaceDeletion_idle hi') remote
        build _ _ _ hi

/-- Every attempt of a run that works on a workspace keeps the rule. -/
theorem run_touches (steps : List Step) {e : Entry Op WorkerError World Change} {rest : Trace}
    (hs : e :: rest <:+ (run steps).trace) {worker : Nat} {event : WorkerEvent}
    (what : e.what = .called worker event) (held : Holds (workerHistory worker rest) c)
    (hstep : managesWorkspace c.step) : TouchRule (workerHistory worker rest) c event.op := by
  refine run_attempts managesWorkspace touchRule ?_ steps hs what held hstep
  intro protectedUsernames fuel step c hc hin
  rcases hin with rfl | rfl | rfl
  · exact createWorkspace_touches fuel hc
  · exact updateWorkspace_touches fuel hc
  · exact deleteWorkspace_touches fuel hc

end Steps

def Store.deployedTemplate (s : Store) (workspaceId : UUID) : Option UUID :=
  (s.workspaces.lookup workspaceId).bind fun w =>
    ((s.assignments.find? fun _ a => a.templateId == w.templateId && a.instanceId == w.instanceId).bind
      fun a => s.deployments.lookup a.1).bind fun d => d.coderTemplateId

/-- That template for the workspace of an attempt, where the attempt reads its workspace. -/
def templateRead (worker : Nat) (c : ExecutionClaim) (e : Entry Op WorkerError World Change) :
    Option UUID :=
  match e.what with
  | .called i event =>
      if i = worker ∧ (snapshotRead c event).isSome then
        c.resourceId.bind e.before.store.deployedTemplate
      else none
  | .changed _ => none

def readTemplate (worker : Nat) (c : ExecutionClaim) (t : Trace) : Option UUID :=
  t.findSome? (templateRead worker c)

theorem Store.deployedTemplate_of_snapshot {s : Store} {id : UUID}
    {snapshot : WorkspaceRemoteSnapshot} (h : s.workspaceRemoteSnapshot id = .ok snapshot) :
    s.deployedTemplate id = some snapshot.coderTemplateId := by
  simp only [workspaceRemoteSnapshot, bind_eq_ok, found_eq_ok, pure_eq_ok] at h
  obtain ⟨w, hw, _, -, _, -, templateId, htemplate, _, -, _, -, rfl⟩ := h
  rw [deployedTemplate, hw]
  exact htemplate

theorem snapshotRead_eq_some {c : ExecutionClaim} {event : WorkerEvent}
    {snapshot : WorkspaceRemoteSnapshot} (h : snapshotRead c event = some snapshot) :
    ∃ id, c.resourceId = some id ∧ event = ⟨.query (.workspaceRemoteSnapshot id), .ok snapshot⟩ := by
  unfold snapshotRead at h
  split at h
  · split at h
    · cases h
      exact ⟨_, ‹_›, rfl⟩
    · cases h
  · cases h

theorem Run.readTemplate_eq {w : World} {t : Trace} (h : Run w t) (worker : Nat)
    (c : ExecutionClaim) : readTemplate worker c t =
      (readSnapshot c (workerHistory worker t)).map fun snapshot => snapshot.coderTemplateId := by
  refine h.induction (motive := fun _ t => readTemplate worker c t =
    (readSnapshot c (workerHistory worker t)).map fun snapshot => snapshot.coderTemplateId) rfl ?move
  intro w t what w' hrun hm ih
  have onward : templateRead worker c ⟨w, what⟩ = none →
      readTemplate worker c (⟨w, what⟩ :: t) = readTemplate worker c t := by
    intro he
    rw [readTemplate, List.findSome?_cons, he]
    rfl
  cases what with
  | changed change => exact (onward rfl).trans ih
  | called i event =>
      by_cases hi : i = worker
      · subst hi
        rw [workerHistory, history_called_self, readSnapshot, List.findSome?_cons]
        cases hread : snapshotRead c event with
        | none => exact (onward (if_neg (by simp [hread]))).trans ih
        | some snapshot =>
            obtain ⟨id, hid, rfl⟩ := snapshotRead_eq_some hread
            have he : templateRead i c ⟨w, .called i ⟨.query (.workspaceRemoteSnapshot id),
                .ok snapshot⟩⟩ = some snapshot.coderTemplateId := by
              refine (if_pos ⟨rfl, by rw [hread]; rfl⟩).trans ?_
              rw [hid]
              exact w.store.deployedTemplate_of_snapshot hm.read.1
            rw [readTemplate, List.findSome?_cons, he, Option.map_some]
      · rw [workerHistory, history_called_ne _ hi]
        exact (onward (if_neg fun h => hi h.1)).trans ih

/-- What an operation touches is of the template that the deployment of the attempt's
workspace had when the attempt read it. -/
def SparesForeign (worker : Nat) (t : Trace) (c : ExecutionClaim) {β : Type} (o : Op β) : Prop :=
  ∀ target, o.touches = some target → ∃ remote template,
    foundRemote (workerHistory worker t) = some (target.1, remote) ∧ remote.id = target.2 ∧
    readTemplate worker c t = some template ∧ remote.templateId = some template

/-- A deletion was just told of a workspace of another template that is not being deleted. -/
def Strays (worker : Nat) (t : Trace) (c : ExecutionClaim) : Prop :=
  c.step = .workspaceDeleteStep01 ∧ ∃ target template,
    justTold (workerHistory worker t) = some target ∧ target.2.deletesAgain ∧
    readTemplate worker c t = some template ∧ target.2.templateId ≠ some template

def OnAttempts (P : Nat → Trace → ExecutionClaim → WorkerEvent → Prop) (t : Trace) : Prop :=
  ∀ e rest worker event c, e :: rest <:+ t → e.what = .called worker event →
    Holds (workerHistory worker rest) c → managesWorkspace c.step → P worker rest c event

/-- In every run the attempts touch no remote workspace of another template exactly when no
deletion goes on after it was told of one that is not being deleted. -/
theorem foreign_workspaces_are_spared_iff (steps : List Step) :
    OnAttempts (fun worker t c event => SparesForeign worker t c event.op) (run steps).trace ↔
      OnAttempts (fun worker t c _ => ¬Strays worker t c) (run steps).trace := by
  refine forall_congr' fun e => forall_congr' fun rest => forall_congr' fun worker =>
    forall_congr' fun event => forall_congr' fun c => forall_congr' fun hs =>
    forall_congr' fun what => forall_congr' fun held => forall_congr' fun hstep => ?_
  have hrule := run_touches steps hs what held hstep
  have hbefore : Run e.before rest := ((run_reaches steps).entry hs).1
  have hread := hbefore.readTemplate_eq worker c
  constructor
  · rintro hspares ⟨hdelete, ⟨url, remote⟩, template, htold, hagain, htemplate, hforeign⟩
    obtain ⟨remote', template', hfound, -, htemplate', hmatch⟩ :=
      hspares _ (hrule.told hdelete _ htold hagain)
    cases hfound.symm.trans (foundRemote_of_told htold)
    cases htemplate.symm.trans htemplate'
    exact hforeign hmatch
  · intro hstays target htarget
    obtain ⟨snapshot, remote, hsnapshot, hfound, rfl, hmatch⟩ := hrule.touched target htarget
    rw [hsnapshot, Option.map_some] at hread
    refine ⟨remote, _, hfound, rfl, hread, ?_⟩
    rcases hmatch with hmatch | ⟨hdelete, htold, hagain⟩
    · exact hmatch
    · by_contra hforeign
      exact hstays ⟨hdelete, _, _, htold, hagain, hread, hforeign⟩

/-- A remote workspace of another template, which has the name of workspace 9. -/
def stranger : CoderWorkspace := ⟨77, .running, 78, .start, "workspace", some 99⟩

/-- Worker 6 rejects the stranger for workspace 9, which is then deleted: worker 7 is told of
the stranger. -/
def trespassing : List Step :=
  deploying ++ [requesting (.createWorkspace 1 5 3 ⟨"workspace", 6, [], []⟩),
    delivering .workspaceCreateStep01 10] ++
  answering 6 [.done, .done, .done, .workspace (some stranger), .done] ++
  [requesting (.requestWorkspaceDeletion 9), delivering .workspaceDeleteStep01 11] ++
  answering 7 [.done, .done, .done, .workspace (some stranger)]

/-- The deletion of a workspace that was never created asks for the deletion of a remote
workspace of another template. -/
theorem deletion_touches_foreign_workspace : ¬∀ steps : List Step,
    OnAttempts (fun worker t c event => SparesForeign worker t c event.op) (run steps).trace := by
  intro h
  have hacting : acting 7 (run trespassing) = true := by decide +kernel
  obtain ⟨event, htrace⟩ := run_acting hacting (.build ⟨79, .pending, .delete⟩)
  have hfirst : (workerHistory 7 (run trespassing).trace).getLast?.bind claimGiven =
      some ⟨11, .registered .workspaceDeleteStep01, .workspaceDeleteStep01, 1, some .workspace,
        some 9⟩ := by decide +kernel
  have htold : justTold (workerHistory 7 (run trespassing).trace) = some (1, stranger) := by
    decide +kernel
  have htemplate : readTemplate 7 ⟨11, .registered .workspaceDeleteStep01, .workspaceDeleteStep01, 1,
      some .workspace, some 9⟩ (run trespassing).trace = some 2 := by decide +kernel
  refine (foreign_workspaces_are_spared_iff _).mp (h _) _ _ 7 event _ ⟨[], htrace.symm⟩ rfl
    (holds_of_first hfirst) (.inr (.inr rfl)) ⟨rfl, _, _, htold, by decide, htemplate, by decide⟩

end CoderManager
