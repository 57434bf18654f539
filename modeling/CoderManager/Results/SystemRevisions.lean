import CoderManager.Publications
import CoderManager.Refinement.SystemParameters
import CoderManager.Refinement.Templates
import CoderManager.Results.AppliedRevisions
import Mathlib.Data.String.Basic

/-!
# System parameter revisions

A version is named after the revision its attempt read, and carries the values its
preparation read later. They belong together: parameters are written only while
nothing converges the template, and a preparation is committed only while the attempt
still owns it, so that nothing was written in between.
-/
namespace CoderManager
open Programs Tables Leases

def publishes (step : StepName) : Prop :=
  step = .templateSyncStep01 ∨ step = .templateAssignmentCreateStep01

def Op.readsSource : {β : Type} → Op β → Bool
  | _, .query (.templateSourceSnapshot _) => true
  | _, _ => false

/-- The attempt read this source and prepared a deployment of it, with these values. -/
def PreparedDeployment (h : WorkerHistory) (c : ExecutionClaim) (snapshot : TemplateSourceSnapshot)
    (commit : String) (values : List (String × String)) : Prop :=
  ∃ templateId assignmentId preparation, Read h (.templateSourceSnapshot templateId) snapshot ∧
    Wrote h (.prepareDeployment c assignmentId snapshot.id commit snapshot.systemParameterRevision)
      preparation ∧ preparation.alreadyApplied = false ∧ preparation.systemValues = values

/-- An attempt reads one source, prepares deployments of it and creates versions
named after it. -/
def publicationRule (h : WorkerHistory) (c : ExecutionClaim) : {β : Type} → Op β → Prop
  | _, .query (.templateSourceSnapshot _) => ∀ e ∈ h, e.op.readsSource = false
  | _, .transaction (.prepareDeployment _ _ templateId _ revision) =>
      ∃ id snapshot, Read h (.templateSourceSnapshot id) snapshot ∧ snapshot.id = templateId ∧
        snapshot.systemParameterRevision = revision
  | _, .call (.createTemplateVersion _ _ _ name _ values) => ∃ snapshot commit,
      PreparedDeployment h c snapshot commit values ∧
        name = versionName commit snapshot.systemParameterRevision
  | _, _ => True

section Attempts
variable {h : WorkerHistory} {c : ExecutionClaim} {snapshot : TemplateSourceSnapshot}
  {archive : TemplateArchive} {preparation : TemplateDeploymentPreparation}

theorem PreparedDeployment.later {h' : WorkerHistory} {commit : String} {values : List (String × String)}
    (hp : PreparedDeployment h c snapshot commit values) (hs : h <:+ h') :
    PreparedDeployment h' c snapshot commit values := by
  obtain ⟨templateId, assignmentId, preparation, hread, hwrote, hfresh, hvalues⟩ := hp
  exact ⟨templateId, assignmentId, preparation, hread.later hs, hwrote.later hs, hfresh, hvalues⟩

theorem publications_permit (hc : Holds h c) :
    Permits (attempts publishes publicationRule) h (publicationHeartbeat c) := by
  refine .always ?_ fun h' hs => ?_
  · intro h' hs β k hk
    refine attempts_guard (hc.later hs) ?_
    cases k <;> first | exact trivial | rcases hk with ⟨⟨⟩⟩ | ⟨⟨⟩⟩
  · refine .bind (.perform (attempts_guard (hc.later hs) trivial)) fun owned _ _ => ?_
    cases owned with
    | false => exact .throw _
    | true => exact .pure ()

theorem managedRemoteTemplate_attempt (hc : Holds h c) (url : InstanceUrl) (organizationId : UUID)
    (name : String) (persistedTemplateId persistedVersionId : Option UUID) :
    Keeps (attempts publishes publicationRule) (managedRemoteTemplate url organizationId name
      persistedTemplateId persistedVersionId) h := by
  rw [managedRemoteTemplate_eq]
  refine .bind ?_ fun persisted h₁ hs₁ => ?_
  · cases persistedTemplateId with
    | none => exact .pure _
    | some templateId => exact .perform (attempts_guard hc trivial)
  · refine .bind (.perform (attempts_guard (hc.later hs₁) trivial)) fun named h₂ _ => ?_
    cases persisted <;> cases named
    · exact .pure _
    · exact .ite (fun _ => .pure _) fun _ => .throw _
    · exact .pure _
    · exact .ite (fun _ => .throw _) fun _ => .pure _

theorem publishedVersion_attempt (hc : Holds h c) (assignmentId organizationId : UUID)
    (hp : PreparedDeployment h c snapshot archive.commit preparation.systemValues)
    (remoteTemplate : Option CoderTemplate) (foundByName : Bool) :
    Keeps (attempts publishes publicationRule) (publishedVersion c assignmentId organizationId
      snapshot archive preparation remoteTemplate foundByName) h := by
  rw [publishedVersion_eq]
  refine .bind ?_ fun named h₁ hs₁ => ?_
  · unfold versionOfName
    exact .ite (fun _ => .perform (attempts_guard hc trivial)) fun _ => .pure _
  refine .bind ?_ fun recovered h₂ hs₂ => ?_
  · cases named with
    | some version => exact .pure _
    | none =>
        simp only [recoveredVersion]
        cases preparation.persistedVersionId with
        | none => exact .pure _
        | some versionId => exact .perform (attempts_guard (hc.later hs₁) trivial)
  · have hs := hs₁.trans hs₂
    cases recovered with
    | some version => exact .pure _
    | none =>
        refine .bind (.perform (attempts_guard (hc.later hs) trivial)) fun fileId h₃ hs₃ => ?_
        have hs' := hs.trans hs₃
        refine .bind (.perform (attempts_guard (hc.later hs') ?_)) fun version h₄ hs₄ => ?_
        · exact ⟨snapshot, archive.commit, hp.later hs', rfl⟩
        · exact .bind (.perform (attempts_guard (hc.later (hs'.trans hs₄)) trivial))
            fun _ _ _ => .pure _

theorem publishTemplate_attempt (hc : Holds h c) (assignmentId : UUID)
    (hp : PreparedDeployment h c snapshot archive.commit preparation.systemValues) (fuel : Nat) :
    Keeps (attempts publishes publicationRule) (publishTemplate c assignmentId snapshot archive
      preparation (publicationHeartbeat c) fuel) h := by
  rw [publishTemplate_eq]
  refine .bind (.perform (attempts_guard hc trivial)) fun _ h₁ hs₁ => ?_
  refine .bind (.perform (attempts_guard (hc.later hs₁) trivial)) fun organizationId h₂ hs₂ => ?_
  have hs₂ := hs₁.trans hs₂
  refine .bind (managedRemoteTemplate_attempt (hc.later hs₂) _ _ _ _ _) fun found h₃ hs₃ => ?_
  have hs₃ := hs₂.trans hs₃
  refine .bind (.perform (attempts_guard (hc.later hs₃) trivial)) fun _ h₄ hs₄ => ?_
  have hs₄ := hs₃.trans hs₄
  refine .bind (publishedVersion_attempt (hc.later hs₄) _ _ (hp.later hs₄) _ _)
    fun version h₅ hs₅ => ?_
  have hs₅ := hs₄.trans hs₅
  have polled : ∀ h' versionId, h₅ <:+ h' → (attempts publishes publicationRule).guard h'
      (.call (.templateVersion preparation.instanceUrl versionId)) := fun _ _ hs =>
    attempts_guard (hc.later (hs₅.trans hs)) trivial
  refine .bind (.ite (fun _ => .pure _) fun _ => ?_) fun version h₆ hs₆ => ?_
  · exact waitTemplateVersion_keeps (publications_permit (hc.later hs₅))
      (fun h' versionId hs => polled h' versionId hs) _ _
  have hs₆ := hs₅.trans hs₆
  refine .bind ?_ fun _ h₇ hs₇ => ?_
  · unfold unarchiveVersion
    exact .ite (fun _ => .perform (attempts_guard (hc.later hs₆) trivial)) fun _ => .pure _
  have hc₇ := hc.later (hs₆.trans hs₇)
  cases found.1 with
  | none =>
      refine .bind (.perform (attempts_guard hc₇ trivial)) fun created h₈ hs₈ => ?_
      exact .perform (attempts_guard (hc₇.later hs₈) trivial)
  | some template => exact .perform (attempts_guard hc₇ trivial)

theorem syncTemplateTarget_attempt (hc : Holds h c) (assignmentId : UUID) {templateId : UUID}
    (hread : Read h (.templateSourceSnapshot templateId) snapshot) (fuel : Nat) :
    Keeps (attempts publishes publicationRule) (syncTemplateTarget snapshot archive assignmentId c
      (publicationHeartbeat c) fuel) h := by
  refine .perform_bind (attempts_guard hc ⟨templateId, snapshot, hread, rfl, rfl⟩)
    fun preparation _ => ?_
  have hs₁ := List.suffix_cons (⟨.transaction (.prepareDeployment c assignmentId snapshot.id
    archive.commit snapshot.systemParameterRevision), .ok preparation⟩ : WorkerEvent) h
  have hc₁ := hc.later hs₁
  refine .ite (fun _ => .pure _) fun hfresh => ?_
  have hprepared : PreparedDeployment (⟨.transaction (.prepareDeployment c assignmentId snapshot.id
      archive.commit snapshot.systemParameterRevision), .ok preparation⟩ :: h) c snapshot
      archive.commit preparation.systemValues :=
    ⟨templateId, assignmentId, preparation, hread.later hs₁, List.mem_cons_self,
      Bool.eq_false_iff.mpr hfresh, rfl⟩
  refine .bind (.tryCatch (publishTemplate_attempt hc₁ assignmentId hprepared fuel)
    fun e h₂ hs₂ => ?_) fun _ h₂ hs₂ => ?_
  · split
    · exact .throw _
    · exact .bind (.perform (attempts_guard (hc₁.later hs₂) trivial)) fun _ _ _ => .throw _
  · exact .bind (.perform (attempts_guard (hc₁.later hs₂) trivial)) fun _ _ _ => .pure _

theorem syncTarget_attempt (hc : Holds h c) {templateId : UUID}
    (hread : Read h (.templateSourceSnapshot templateId) snapshot) (fuel failures : Nat)
    (assignmentId : UUID) :
    Keeps (attempts publishes publicationRule)
      (Tasks.syncTarget snapshot archive c fuel failures assignmentId) h := by
  refine .bind (publications_permit hc).heartbeat_keeps fun _ h₁ hs₁ => ?_
  refine .tryCatch (.bind (syncTemplateTarget_attempt (hc.later hs₁) _ (hread.later hs₁) _)
    fun _ _ _ => .pure _) fun e _ _ => ?_
  split
  · exact .throw _
  · exact .pure _

theorem complete_attempt (hc : Holds h c) (mutate : Mutation) :
    Keeps (attempts publishes publicationRule) (complete c mutate) h :=
  .bind (.perform (attempts_guard hc trivial)) fun _ _ _ => .pure _

theorem createTemplate_attempt (fuel : Nat) :
    Keeps (attempts publishes publicationRule) (Tasks.createTemplate fuel c) [claimEvent c] := by
  cases hid : c.resourceId with
  | none =>
      simp only [Tasks.createTemplate, ExecutionClaim.requiredResourceId, hid, liftExcept]
      exact .throw _
  | some assignmentId =>
      simp only [Tasks.createTemplate, ExecutionClaim.requiredResourceId, hid, liftExcept]
      refine .perform_bind (attempts_guard Holds.start trivial) fun templateId _ => ?_
      have hc₁ := Holds.start.cons (c := c)
        ⟨.query (.assignmentTemplateId assignmentId), .ok templateId⟩
      refine .perform_bind (attempts_guard hc₁ ?_) fun snapshot _ => ?_
      · intro e he
        rcases List.mem_pair.mp he with rfl | rfl <;> rfl
      have hc₂ := hc₁.cons ⟨.query (.templateSourceSnapshot templateId), .ok snapshot⟩
      refine .bind (.perform (attempts_guard hc₂ trivial)) fun archive h₃ hs₃ => ?_
      have hread : Read h₃ (.templateSourceSnapshot templateId) snapshot :=
        hs₃.subset List.mem_cons_self
      have hc₃ := hc₂.later hs₃
      refine .bind (syncTemplateTarget_attempt hc₃ assignmentId hread fuel) fun _ h₄ hs₄ => ?_
      exact complete_attempt (hc₃.later hs₄) _

theorem syncTemplate_attempt (fuel : Nat) :
    Keeps (attempts publishes publicationRule) (Tasks.syncTemplate fuel c) [claimEvent c] := by
  cases hid : c.resourceId with
  | none =>
      simp only [Tasks.syncTemplate, ExecutionClaim.requiredResourceId, hid, liftExcept]
      exact .throw _
  | some templateId =>
      simp only [Tasks.syncTemplate, ExecutionClaim.requiredResourceId, hid, liftExcept]
      refine .perform_bind (attempts_guard Holds.start trivial) fun assignmentIds _ => ?_
      have hc₁ := Holds.start.cons (c := c)
        ⟨.query (.stableAssignmentIds templateId), .ok assignmentIds⟩
      refine .ite (fun _ => complete_attempt hc₁ _) fun _ => ?_
      refine .perform_bind (attempts_guard hc₁ ?_) fun snapshot _ => ?_
      · intro e he
        rcases List.mem_pair.mp he with rfl | rfl <;> rfl
      have hc₂ := hc₁.cons ⟨.query (.templateSourceSnapshot templateId), .ok snapshot⟩
      refine .bind (.perform (attempts_guard hc₂ trivial)) fun archive h₃ hs₃ => ?_
      have hread : Read h₃ (.templateSourceSnapshot templateId) snapshot :=
        hs₃.subset List.mem_cons_self
      have hc₃ := hc₂.later hs₃
      refine .bind (foldEach_keeps _ _ fun failures assignmentId h' hs =>
        syncTarget_attempt (hc₃.later hs) (hread.later hs) _ _ _) fun failures h₄ hs₄ => ?_
      exact .ite (fun _ => .throw _) fun _ => complete_attempt (hc₃.later hs₄) _

theorem run_publishes (steps : List Step) {e : Entry Op WorkerError World Change} {rest : Trace}
    (hs : e :: rest <:+ (run steps).trace) {worker : Nat} {event : WorkerEvent}
    (what : e.what = .called worker event) (held : Holds (workerHistory worker rest) c)
    (hstep : publishes c.step) : publicationRule (workerHistory worker rest) c event.op := by
  refine run_attempts publishes publicationRule ?_ steps hs what held hstep
  intro protectedUsernames fuel step c hc hin
  refine .of_keeps ?_ fun _ => trivial
  rcases hin with rfl | rfl
  · exact syncTemplate_attempt fuel
  · exact createTemplate_attempt fuel

end Attempts

section Runs
variable {w w' : World} {t : Trace} {what : WhatHappened} {worker : Nat} {c : ExecutionClaim}
  {id : UUID} {snapshot : TemplateSourceSnapshot}

theorem Store.SystemValued.empty : Store.empty.SystemValued := by
  constructor
  · intro id id' p p' hp
    cases hp
  · intro id p hp
    cases hp
  · intro id p hp
    cases hp

theorem Run.system_valued (h : Run w t) : w.store.SystemValued := by
  refine h.induction (motive := fun w _ => w.store.SystemValued) .empty ?move
  case move =>
    intro w t what w' hrun hm ih
    rcases hm.store_cases with h | ⟨now, h⟩ | ⟨r, -, h⟩ | ⟨worker, β, tr, a, -, -, h⟩
    · exact h ▸ ih
    · exact h ▸ ih.of_eq (Nat.le_refl _) rfl rfl
    · exact ih.accepted h (hm.nextId_le hrun.sound)
    · have hnarrow := Narrowed.committed h
      exact ih.of_eq hnarrow.nextId hnarrow.parameters hnarrow.systemValues

theorem Moved.advances (hrun : Run w t) (hm : Moved w t what w') :
    w.store.Advances w'.store := by
  rcases hm.store_cases with h | ⟨now, h⟩ | ⟨r, -, h⟩ | ⟨worker, β, tr, a, -, -, h⟩
  · exact h ▸ .refl _
  · exact h ▸ .of_within (Nat.le_refl _) (.refl _ _) rfl rfl
  · exact .accepted hrun.system_valued h (hm.nextId_le hrun.sound)
  · exact .of_narrowed (.committed h)

theorem run_advances (steps more : List Step) {t t' : Template}
    (row : (run steps).world.store.templates.lookup id = some t)
    (row' : (run (steps ++ more)).world.store.templates.lookup id = some t') :
    t.systemParameterRevision ≤ t'.systemParameterRevision ∧
      (t'.systemParameterRevision = t.systemParameterRevision →
        (run (steps ++ more)).world.store.systemParameterValues id =
          (run steps).world.store.systemParameterValues id) := by
  have hadvances : (run steps).world.store.Advances (run (steps ++ more)).world.store :=
    run_later (Q := fun w w' => w.store.Advances w'.store) (fun w => .refl w.store)
      Store.Advances.trans (fun _ _ _ _ hrun hm => hm.advances hrun) steps more
  rcases hadvances.templates id t' row' with hnew | ⟨t₀, ht₀, hle, hsame⟩
  · have hold := (run_reaches steps).sound.grounded.templates id t row
    exact absurd hold (Nat.not_lt.mpr hnew)
  · cases row.symm.trans ht₀
    exact ⟨hle, hsame⟩

def Store.Targets (s : Store) (c : ExecutionClaim) (templateId : UUID) : Prop :=
  (c.resourceType = some .template ∧ c.resourceId = some templateId) ∨
    ∃ id a, c.resourceType = some .templateAssignment ∧ c.resourceId = some id ∧
      s.assignments.lookup id = some a ∧ a.templateId = templateId

theorem Store.targets_of_lock {s : Store} {assignmentId : UUID} {expected : Option UUID}
    {target : OwnedTemplateTarget}
    (h : s.lockOwnedTemplateTarget c assignmentId expected = .ok target) :
    s.Targets c target.templateId := by
  obtain ⟨job, a, i, t, -, hmatch, ha, -, -, howns, -, rfl⟩ := lockOwnedTemplateTarget_ok h
  simp only [jobMatchesClaim, Bool.and_eq_true, beq_iff_eq] at hmatch
  obtain ⟨⟨-, htype⟩, hid⟩ := hmatch
  simp only [jobOwnsSyncResource] at howns
  split at howns
  · rename_i hname
    simp only [Bool.and_eq_true, beq_iff_eq] at howns
    exact .inl ⟨htype.symm.trans hname.2, hid.symm.trans howns.1.1.1.1⟩
  · split at howns
    · rename_i hname
      simp only [Bool.and_eq_true, beq_iff_eq] at howns
      exact .inr ⟨assignmentId, a, htype.symm.trans hname.2, hid.symm.trans howns.1.1.1.1, ha, rfl⟩
    · cases howns

/-- While an attempt owns its execution its template is not calm. -/
theorem Run.not_calm (hrun : Run w t) (held : Holds (workerHistory worker t) c)
    (owned : (w.store.ownedExecution c).isSome = true) (target : w.store.Targets c id)
    (row : Template) : ¬w.store.Calm id row := by
  rintro ⟨hrow, hsettled, hassignments⟩
  rcases target with ⟨type, resource⟩ | ⟨assignmentId, a, type, resource, ha, hid⟩
  · obtain ⟨job, r, -, -, hr, hrunning⟩ := hrun.owned_running held type resource owned
    obtain ⟨row', hrow', rfl⟩ := Option.map_eq_some_iff.mp hr
    cases hrow.symm.trans hrow'
    cases hsettled.symm.trans hrunning
  · obtain ⟨job, r, -, -, hr, hrunning⟩ := hrun.owned_running held type resource owned
    obtain ⟨a', ha', rfl⟩ := Option.map_eq_some_iff.mp hr
    cases ha.symm.trans ha'
    cases (hassignments assignmentId a ha hid).symm.trans hrunning

theorem Moved.targets_before (hrun : Run w t) (hm : Moved w t what w')
    (held : Holds (workerHistory worker t) c) (owned : (w.store.ownedExecution c).isSome = true)
    (target : w'.store.Targets c id) : w.store.Targets c id := by
  rcases target with h | ⟨assignmentId, a', type, resource, ha', hid⟩
  · exact .inl h
  · obtain ⟨job, r, -, -, hr, -⟩ := hrun.owned_running held type resource owned
    obtain ⟨a, ha, -⟩ := Option.map_eq_some_iff.mp hr
    rcases hm.assignments_grow.2 assignmentId a' ha' with hnew | ⟨a₀, ha₀, -, hsame⟩
    · exact absurd (hrun.sound.grounded.assignments _ a ha).1 (Nat.not_lt.mpr hnew)
    · exact .inr ⟨assignmentId, a₀, type, resource, ha₀, hsame.symm.trans hid⟩

theorem Store.templateSourceSnapshot_ok {s : Store}
    (h : s.templateSourceSnapshot id = .ok snapshot) : ∃ t, s.templates.lookup id = some t ∧
      snapshot.id = id ∧ snapshot.systemParameterRevision = t.systemParameterRevision := by
  simp only [templateSourceSnapshot, bind_eq_ok, found_eq_ok, pure_eq_ok] at h
  obtain ⟨t, ht, rfl⟩ := h
  exact ⟨t, ht, rfl, rfl⟩

theorem Run.source_id (hrun : Run w t)
    (hread : Read (workerHistory worker t) (.templateSourceSnapshot id) snapshot) :
    snapshot.id = id := by
  obtain ⟨v, hv⟩ := mem_history.mp hread
  obtain ⟨later, rest, rfl⟩ := List.append_of_mem hv
  obtain ⟨-, ⟨v', hm⟩, -⟩ := hrun.entry (List.suffix_append _ _)
  obtain ⟨t, -, hid, -⟩ := Store.templateSourceSnapshot_ok hm.read.1
  exact hid

/-- While an attempt owns its template the revision it read is that of the template. -/
theorem Run.source_current (h : Run w t) : ∀ worker c id snapshot,
    Holds (workerHistory worker t) c →
    Read (workerHistory worker t) (.templateSourceSnapshot id) snapshot →
    (w.store.ownedExecution c).isSome = true → w.store.Targets c id →
    id < w.store.nextId ∧ ∀ row, w.store.templates.lookup id = some row →
      row.systemParameterRevision = snapshot.systemParameterRevision := by
  refine h.induction (motive := fun w t => ∀ worker c id snapshot,
    Holds (workerHistory worker t) c →
    Read (workerHistory worker t) (.templateSourceSnapshot id) snapshot →
    (w.store.ownedExecution c).isSome = true → w.store.Targets c id →
    id < w.store.nextId ∧ ∀ row, w.store.templates.lookup id = some row →
      row.systemParameterRevision = snapshot.systemParameterRevision) ?start ?move
  case start =>
    intro worker c id snapshot _ hread
    exact absurd hread List.not_mem_nil
  case move =>
    intro w t what w' hrun hm ih worker c id snapshot held hread owned target
    rcases mem_workerHistory_cons.mp hread with rfl | hold
    · obtain ⟨hanswer, rfl⟩ := hm.read
      obtain ⟨row, hrow, -, hrevision⟩ := Store.templateSourceSnapshot_ok hanswer
      refine ⟨hrun.sound.grounded.templates id row hrow, fun row' hrow' => ?_⟩
      cases hrow.symm.trans hrow'
      exact hrevision.symm
    · have hbefore : Holds (workerHistory worker t) c := by
        rcases held.before_last with hs | hnil
        · exact hs
        · exact absurd hold (hnil ▸ List.not_mem_nil)
      have howned := hm.owned_before hrun hbefore owned
      have htarget := hm.targets_before hrun hbefore howned target
      obtain ⟨hlt, hfit⟩ := ih worker c id snapshot hbefore hold howned htarget
      refine ⟨Nat.lt_of_lt_of_le hlt (hm.nextId_le hrun.sound), fun row' hrow' => ?_⟩
      rcases hm.store_cases with h | ⟨now, h⟩ | ⟨r, -, h⟩ | ⟨worker', β, tr, a, -, -, h⟩
      · exact hfit row' (h ▸ hrow')
      · rw [h] at hrow'
        exact hfit row' hrow'
      · rcases Store.revision_cases h hrow' with hnew | ⟨row, hrow, hsame | hcalm⟩
        · exact absurd hlt (Nat.not_lt.mpr hnew)
        · exact hsame.trans (hfit row hrow)
        · exact absurd hcalm (hrun.not_calm hbefore howned htarget row)
      · obtain ⟨row, hrow, hcols⟩ := (Narrowed.committed h).templates id row' hrow'
        exact (congrArg (·.2.2.2.2.2.2) hcols).trans (hfit row hrow)

def PreparesValues (s : Store) : {β : Type} → Transaction β → β → Prop
  | _, .prepareDeployment c assignmentId templateId _ _, preparation =>
      preparation.alreadyApplied = false → ∃ target,
        s.lockOwnedTemplateTarget c assignmentId (some templateId) = .ok target ∧
          s.systemParameterValues target.templateId = .ok preparation.systemValues
  | _, _, _ => True

theorem Committed.preparesValues {s s' : Store} {β : Type} {tr : Transaction β} {a : β}
    (hc : Committed s tr a s') : PreparesValues s tr a := by
  cases hc with
  | prepareDeployment owned _ _ _ values => exact fun _ => ⟨_, owned, values⟩
  | deploymentApplied _ _ _ _ _ _ _ answer => exact fun fresh => absurd answer (by simp [fresh])
  | _ => trivial

def Op.isPreparation : {β : Type} → Op β → Bool
  | _, .transaction (.prepareDeployment _ _ _ _ _) => true
  | _, _ => false

theorem preparation_ne_claim {assignmentId templateId : UUID} {commit : String} {revision : Nat}
    {a : Except WorkerError TemplateDeploymentPreparation} {c' : ExecutionClaim} :
    (⟨.transaction (.prepareDeployment c assignmentId templateId commit revision), a⟩ : WorkerEvent) ≠
      claimEvent c' :=
  fun h => Bool.noConfusion (congrArg (fun e : WorkerEvent => e.op.isPreparation) h)

theorem Run.prepared_values (hrun : Run w t) {assignmentId : UUID} {commit : String} {revision : Nat}
    {preparation : TemplateDeploymentPreparation}
    (hm : Moved w t (.called worker ⟨.transaction (.prepareDeployment c assignmentId id commit
      revision), .ok preparation⟩) w')
    (hread : Read (workerHistory worker t) (.templateSourceSnapshot id) snapshot)
    (fresh : preparation.alreadyApplied = false) :
    ∃ row, w.store.templates.lookup id = some row ∧
      row.systemParameterRevision = snapshot.systemParameterRevision ∧
      w.store.systemParameterValues id = .ok preparation.systemValues := by
  obtain ⟨held, hcommitted⟩ := hm.wrote
  obtain ⟨target, hlock, hvalues⟩ := hcommitted.preparesValues fresh
  obtain ⟨job, howned⟩ := Store.ownedExecution_of_lock hlock
  have htargets := Store.targets_of_lock hlock
  obtain ⟨-, a, i, row, -, -, -, -, hrow, -, hexpected, rfl⟩ := Store.lockOwnedTemplateTarget_ok hlock
  simp only [← hexpected id rfl] at hrow htargets hvalues
  have hfit := hrun.source_current worker c id snapshot held hread (by simp [howned]) htargets
  exact ⟨row, hrow, hfit.2 row hrow, hvalues⟩

theorem run_reads_source_once {steps : List Step} {rest : Trace} (hrest : rest <:+ (run steps).trace)
    (held : Holds (workerHistory worker rest) c) (hstep : publishes c.step) {id' : UUID}
    {snapshot' : TemplateSourceSnapshot}
    (hread : Read (workerHistory worker rest) (.templateSourceSnapshot id) snapshot)
    (hread' : Read (workerHistory worker rest) (.templateSourceSnapshot id') snapshot') :
    snapshot' = snapshot := by
  -- A read leaves no read before it.
  have first : ∀ {id id' : UUID} {snapshot snapshot' : TemplateSourceSnapshot} {v v' : World}
      {older older' : Trace},
      ⟨v, .called worker ⟨.query (.templateSourceSnapshot id), .ok snapshot⟩⟩ :: older <:+ rest →
      Holds (workerHistory worker older) c →
      ¬⟨v', .called worker ⟨.query (.templateSourceSnapshot id'), .ok snapshot'⟩⟩ :: older' <:+
        older := by
    intro id id' snapshot snapshot' v v' older older' hs held' hs'
    have hfirst := run_publishes steps (hs.trans hrest) rfl held' hstep
    have hmem : (⟨.query (.templateSourceSnapshot id'), .ok snapshot'⟩ : WorkerEvent) ∈
        workerHistory worker older := mem_history.mpr ⟨v', hs'.subset List.mem_cons_self⟩
    exact Bool.noConfusion (hfirst _ hmem)
  obtain ⟨v, older, hs, held₁⟩ := held.before hread query_ne_transaction
  obtain ⟨v', older', hs', held₂⟩ := held.before hread' query_ne_transaction
  rcases List.suffix_or_suffix_of_suffix hs hs' with h | h
  · rcases List.suffix_cons_iff.mp h with heq | h
    · have hevent := congrArg Entry.what (List.cons.inj heq).1
      simp only [Happening.called.injEq, Event.mk.injEq, true_and, heq_eq_eq, Except.ok.injEq]
        at hevent
      exact hevent.2.symm
    · exact absurd h (first hs' held₂)
  · rcases List.suffix_cons_iff.mp h with heq | h
    · have hevent := congrArg Entry.what (List.cons.inj heq).1
      simp only [Happening.called.injEq, Event.mk.injEq, true_and, heq_eq_eq, Except.ok.injEq]
        at hevent
      exact hevent.2
    · exact absurd h (first hs held₁)

theorem run_prepared {steps : List Step} {rest : Trace} (hrest : rest <:+ (run steps).trace)
    (held : Holds (workerHistory worker rest) c) (hstep : publishes c.step) {commit : String}
    {values : List (String × String)}
    (hp : PreparedDeployment (workerHistory worker rest) c snapshot commit values) :
    ∃ earlier t, earlier <+: steps ∧
      (run earlier).world.store.templates.lookup snapshot.id = some t ∧
      t.systemParameterRevision = snapshot.systemParameterRevision ∧
      (run earlier).world.store.systemParameterValues snapshot.id = .ok values := by
  obtain ⟨templateId, assignmentId, preparation, hread, hwrote, hfresh, rfl⟩ := hp
  obtain ⟨v, older, hs, held'⟩ := held.before hwrote preparation_ne_claim
  obtain ⟨id, snapshot', hread', hid, hrevision⟩ :=
    run_publishes steps (hs.trans hrest) rfl held' hstep
  obtain ⟨hrun, ⟨v', hm⟩, -⟩ := (run_reaches steps).entry (hs.trans hrest)
  have hsource : id = snapshot.id := (hrun.source_id hread').symm.trans hid
  obtain ⟨t, hrow, hrow', hvalues⟩ := hrun.prepared_values hm (hsource ▸ hread') hfresh
  obtain ⟨earlier, hfront, rfl, -⟩ := run_entry (hs.trans hrest)
  exact ⟨earlier, t, hfront, hrow, hrow'.trans hrevision, hvalues⟩

end Runs

/-- The digits at the end of a version name are those of the revision. -/
theorem versionName_digits (commit : String) (revision : Nat) :
    (versionName commit revision).toList.reverse.takeWhile Char.isDigit =
      (Nat.toDigits 10 revision).reverse := by
  have hname : (versionName commit revision).toList =
      "git-".toList ++ commit.toList ++ "-p".toList ++ Nat.toDigits 10 revision := by
    simp [versionName, String.toList_append]
  have hdigits : ∀ x ∈ (Nat.toDigits 10 revision).reverse, x.isDigit = true := fun x hx =>
    Nat.isDigit_of_mem_toDigits (by decide) (by decide) (List.mem_reverse.mp hx)
  rw [hname, List.reverse_append, List.takeWhile_append_of_pos hdigits]
  simp

theorem versionName_revision {commit commit' : String} {revision revision' : Nat}
    (h : versionName commit revision = versionName commit' revision') : revision = revision' := by
  have hdigits : (Nat.toDigits 10 revision).reverse = (Nat.toDigits 10 revision').reverse := by
    rw [← versionName_digits commit, ← versionName_digits commit', h]
  rw [← Nat.ofDigitChars_ten_toDigits (n := revision), List.reverse_injective hdigits,
    Nat.ofDigitChars_ten_toDigits]

/-- System parameter revisions determine the published values, in every run. -/
theorem system_revisions_determine_values (steps : List Step) :
    let s := (run steps).world.store
    -- The values of every template are resolved, each name once and in order.
    (∀ id, ∃ values, s.systemParameterValues id = .ok values ∧
      (values.map Prod.fst).Pairwise (· < ·)) ∧
    -- The revision never falls, and while it stays the values stay.
    (∀ more id t t', s.templates.lookup id = some t →
      (run (steps ++ more)).world.store.templates.lookup id = some t' →
      t.systemParameterRevision ≤ t'.systemParameterRevision ∧
      (t'.systemParameterRevision = t.systemParameterRevision →
        (run (steps ++ more)).world.store.systemParameterValues id = s.systemParameterValues id)) ∧
    -- An update that names no value, or the stored one, keeps revisions and values.
    (∀ id parameterId j displayName description update s', s.KeepsValue parameterId update →
      s.updateParameter id parameterId displayName description update = .ok (j, s') →
      s'.templates = s.templates ∧
      ∀ templateId, s'.systemParameterValues templateId = s.systemParameterValues templateId) ∧
    -- A version named after a revision of the source is created with the values of it.
    ∀ w rest worker c url organizationId fileId name remoteId values answer,
      ⟨w, .called worker ⟨.call (.createTemplateVersion url organizationId fileId name remoteId
        values), answer⟩⟩ :: rest <:+ (run steps).trace →
      Holds (workerHistory worker rest) c → publishes c.step →
      ∃ snapshot commit,
        (∀ id snapshot', Read (workerHistory worker rest) (.templateSourceSnapshot id) snapshot' ↔
          id = snapshot.id ∧ snapshot' = snapshot) ∧
        name = versionName commit snapshot.systemParameterRevision ∧
        ∀ commit' revision, name = versionName commit' revision →
          (∃ earlier t, earlier <+: steps ∧
            (run earlier).world.store.templates.lookup snapshot.id = some t ∧
            t.systemParameterRevision = revision) ∧
          ∀ earlier t, earlier <+: steps →
            (run earlier).world.store.templates.lookup snapshot.id = some t →
            t.systemParameterRevision = revision →
            (run earlier).world.store.systemParameterValues snapshot.id = .ok values := by
  intro s
  have hvalued : s.SystemValued := (run_reaches steps).system_valued
  refine ⟨hvalued.resolves, fun more id t t' => run_advances steps more, ?_, ?_⟩
  · intro id parameterId j displayName description update s' keeps h
    obtain ⟨p, p', hrow, hsame, rfl⟩ := Store.updateParameter_kept keeps h
    exact ⟨rfl, fun templateId => Store.systemParameterValues_congr hvalued.apart
      (.replaced hrow hsame rfl rfl)⟩
  · intro w rest worker c url organizationId fileId name remoteId values answer hs held hstep
    have hrest := (List.suffix_cons _ _).trans hs
    obtain ⟨snapshot, commit, hp, rfl⟩ := run_publishes steps hs rfl held hstep
    obtain ⟨earlier, t, hfront, hrow, hrevision, hvalues⟩ := run_prepared hrest held hstep hp
    obtain ⟨templateId, -, -, hread, -⟩ := hp
    obtain ⟨hrun, -, -⟩ := (run_reaches steps).entry hs
    refine ⟨snapshot, commit, fun id snapshot' => ⟨fun hread' => ?_, ?_⟩, rfl, ?_⟩
    · cases run_reads_source_once hrest held hstep hread hread'
      exact ⟨(hrun.source_id hread').symm, rfl⟩
    · rintro ⟨rfl, rfl⟩
      cases hrun.source_id hread
      exact hread
    · intro commit' revision hname
      cases versionName_revision hname
      refine ⟨⟨earlier, t, hfront, hrow, hrevision⟩, fun earlier' t' hfront' hrow' hrevision' => ?_⟩
      -- One of the two states came first.
      rcases List.prefix_or_prefix_of_prefix hfront hfront' with ⟨more, rfl⟩ | ⟨more, rfl⟩
      · exact ((run_advances earlier more hrow hrow').2 (hrevision'.trans hrevision.symm)).trans
          hvalues
      · exact ((run_advances earlier' more hrow' hrow).2
          (hrevision.trans hrevision'.symm)).symm.trans hvalues

end CoderManager
