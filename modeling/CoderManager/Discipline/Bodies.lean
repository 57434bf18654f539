import CoderManager.Discipline.Rules
import CoderManager.Discipline.Services
import CoderManager.Publications

/-!
# Every body keeps the discipline

One lemma for each step body, from the history that holds its claim only.
-/
namespace CoderManager
open Programs

section Histories
variable {h h' : WorkerHistory} {c : ExecutionClaim}

theorem Holds.later (hc : Holds h c) (hs : h <:+ h') : Holds h' c := hc.trans hs

theorem Holds.start : Holds [claimEvent c] c := List.suffix_rfl

theorem Holds.cons (hc : Holds h c) (e : WorkerEvent) : Holds (e :: h) c :=
  hc.later (List.suffix_cons e h)

theorem Read.later {β : Type} {q : Query β} {a : β} (hr : Read h q a) (hs : h <:+ h') :
    Read h' q a := hs.subset hr

theorem Wrote.later {β : Type} {t : Transaction β} {a : β} (hr : Wrote h t a) (hs : h <:+ h') :
    Wrote h' t a := hs.subset hr

theorem Called.later {β : Type} {k : Call β} {a : β} (hr : Called h k a) (hs : h <:+ h') :
    Called h' k a := hs.subset hr

end Histories

section Steps
variable {h : WorkerHistory} {c : ExecutionClaim}

theorem query_keeps {β : Type} (q : Query β) : Keeps discipline (query q) h := .perform trivial

theorem heartbeatOwned_keeps (hc : Holds h c) (lost : WorkerError) :
    Keeps discipline (heartbeatOwned c lost) h := by
  refine .bind (.perform hc) fun current _ _ => ?_
  cases current
  · exact .throw _
  · exact .pure ()

theorem permits (hc : Holds h c) (lost : WorkerError) :
    Permits discipline h (heartbeatOwned c lost) := by
  refine .always ?_ fun _ hs => heartbeatOwned_keeps (hc.later hs) lost
  intro h' _ β k hk
  cases k <;> first | exact trivial | rcases hk with ⟨⟨⟩⟩ | ⟨⟨⟩⟩

theorem dispatchRegisteredStep_keeps (task : TaskName) (jobId : UUID) :
    Keeps discipline (dispatchRegisteredStep task jobId) h := by
  refine .ite (fun _ => ?_) fun _ => .pure _
  exact .tryCatch (.perform trivial) fun _ _ _ => .pure _

theorem advanceTo_keeps {step : StepName} {mutate : Mutation} (hc : Holds h c)
    (ha : Advances h c step mutate) : Keeps discipline (advanceTo c step mutate) h := by
  refine .bind (.perform ⟨hc, rfl, ha⟩) fun committed _ _ => ?_
  refine .ite (fun _ => ?_) fun _ => .pure _
  exact .bind (dispatchRegisteredStep_keeps _ _) fun _ _ _ => .pure _

theorem complete_keeps {mutate : Mutation} (hc : Holds h c) (hm : Concludes c mutate false) :
    Keeps discipline (complete c mutate) h :=
  .bind (.perform ⟨hc, hm⟩) fun _ _ _ => .pure _

theorem defer_keeps {mutate : Mutation} (hc : Holds h c) (hm : Releases h c mutate) :
    Keeps discipline (defer c mutate) h :=
  .bind (.perform ⟨hc, hm⟩) fun _ _ _ => .pure _

theorem liftExcept_keeps {α : Type} (x : Except WorkerError α) :
    Keeps discipline (liftExcept x) h := by
  cases x
  · exact .throw _
  · exact .pure _

theorem requiredAdminPassword_keeps (instanceId : UUID) :
    Keeps discipline (requiredAdminPassword instanceId) h := by
  refine .bind (query_keeps _) fun credentials _ _ => ?_
  cases credentials
  · exact .throw _
  · exact .pure _

theorem requiredAdminPassword_bind {α : Type} {instanceId : UUID}
    {k : InstanceUrl × String → Worker α}
    (rest : ∀ password e, isReconciliation e.op = false →
      Keeps discipline (k (instanceId, password)) (e :: h)) :
    Keeps discipline (requiredAdminPassword instanceId >>= k) h := by
  refine obeys_bind.mpr (obeys_bind.mpr (obeys_perform.mpr ⟨trivial, ?_, fun _ _ => trivial⟩))
  intro credentials hurl
  cases credentials with
  | none => exact trivial
  | some credentials =>
      obtain ⟨url, password⟩ := credentials
      obtain rfl : url = instanceId := hurl
      exact rest password _ rfl

theorem reconcile_obeys {instanceId : UUID} {slug : String} {attachedName : Option String}
    {members : List (String × MemberRole)} (hc : Holds h c) (resource : c.resourceId = some instanceId)
    (first : ∀ e ∈ h, isReconciliation e.op = false)
    (hm : ∀ h', h <:+ h' → Reconciles h' c instanceId members) :
    Obeys discipline (reconcile instanceId slug attachedName members) h
      (fun r h' => h <:+ h' ∧ r.applicationName ≠ "" ∧
        (r.status = .completed → Reconciled h' instanceId members r.applicationName))
      (fun _ h' => h <:+ h') := by
  refine obeys_bind.mpr (obeys_bind.mpr (obeys_perform.mpr ⟨trivial, ?_, fun _ _ =>
    List.suffix_cons _ _⟩))
  intro target _
  cases target with
  | none => exact List.suffix_cons _ _
  | some target =>
      refine obeys_bind.mpr (obeys_perform.mpr ⟨trivial, ?_, fun _ _ =>
        (List.suffix_cons _ _).trans (List.suffix_cons _ _)⟩)
      intro kubeconfig _
      refine obeys_perform.mpr ⟨⟨?_, c, (hc.cons _).cons _, resource,
        hm _ ((List.suffix_cons _ _).trans (List.suffix_cons _ _))⟩, ?_, ?_⟩
      · intro e he
        rcases List.mem_cons.mp he with rfl | he
        · rfl
        · rcases List.mem_cons.mp he with rfl | he
          · rfl
          · exact first e he
      · intro r hr
        refine ⟨((List.suffix_cons _ _).trans (List.suffix_cons _ _)).trans (List.suffix_cons _ _),
          hr, fun hcompleted => ?_⟩
        obtain ⟨status, name⟩ := r
        subst hcompleted
        exact ⟨slug, attachedName, _, List.mem_cons_self⟩
      · intro e _
        exact ((List.suffix_cons _ _).trans (List.suffix_cons _ _)).trans (List.suffix_cons _ _)

end Steps

namespace Tasks
variable {c : ExecutionClaim}

theorem createSchema_keeps (step : c.step = .instanceCreateStep01) :
    Keeps discipline (createSchema c) [claimEvent c] := by
  unfold createSchema ExecutionClaim.requiredResourceId
  cases hid : c.resourceId with
  | none => exact .throw _
  | some instanceId =>
      refine .perform_bind trivial fun target _ => ?_
      have hc := Holds.start.cons (c := c) ⟨.query (.managedDatabaseTarget instanceId), .ok target⟩
      cases target with
      | none => exact .throw _
      | some target =>
          obtain ⟨target, name⟩ := target
          refine .perform_bind ⟨c, instanceId, name, hc, step, hid, List.mem_cons_self⟩ fun _ _ => ?_
          exact advanceTo_keeps (hc.cons _) (.createSchema step)

theorem createInstance_keeps (step : c.step = .instanceCreateStep02) :
    Keeps discipline (createInstance c) [claimEvent c] := by
  refine .perform_bind trivial fun snapshot hsnap => ?_
  have hc := Holds.start.cons (c := c) ⟨.query (.instanceSnapshot c.resourceId
    (.typeError "Instance is missing")), .ok snapshot⟩
  refine obeys_bind.mpr ((reconcile_obeys hc hsnap ?_ fun _ _ => .restore (.inl step)).mono ?_
    (fun _ _ _ => trivial))
  · simp [isReconciliation, claimEvent]
  · rintro r h' ⟨hs, hname, -⟩
    cases r.status with
    | deferred => exact defer_keeps (hc.later hs) .none
    | completed => exact advanceTo_keeps (hc.later hs) (.createInstance step hname)

theorem bootstrapAdmin_keeps (step : c.step = .instanceCreateStep03) :
    Keeps discipline (bootstrapAdmin c) [claimEvent c] := by
  refine .perform_bind ⟨Holds.start, step⟩ fun preparation hprep => ?_
  cases preparation with
  | none => exact .pure _
  | some preparation =>
      have hupdate : preparation.isUpdate = false := hprep step
      have finish : ∀ h', [claimEvent c] <:+ h' → Keeps discipline
          (if preparation.isUpdate then advanceTo c .instanceUpdateStep02 .promotePassword
            else complete c .promotePassword) h' := by
        intro h' hs
        simp only [hupdate, Bool.false_eq_true, if_false]
        exact complete_keeps (Holds.start.later hs) (.bootstrapAdmin step)
      cases hp : preparation.password with
      | none =>
          simp only [hp]
          exact .bind (.pure ()) fun _ h' hs => finish h' ((List.suffix_cons _ _).trans hs)
      | some password =>
          simp only [hp]
          exact .bind (Coder.bootstrapAdminAccount_keeps (permits (Holds.start.cons _) claimLost) _)
            fun _ h' hs => finish h' ((List.suffix_cons _ _).trans hs)

theorem updateInstance_keeps (step : c.step = .instanceUpdateStep01) :
    Keeps discipline (updateInstance c) [claimEvent c] := by
  refine .perform_bind ⟨rfl, step⟩ fun claimed _ => ?_
  have hc := Holds.start.cons (c := c) ⟨.transaction (.claimMembers c), .ok claimed⟩
  have own : ∀ h', (⟨.transaction (.claimMembers c), .ok claimed⟩ : WorkerEvent) :: [claimEvent c] <:+
      h' → Wrote h' (.claimMembers c) claimed := fun h' hs => hs.subset List.mem_cons_self
  refine obeys_bind.mpr (obeys_tryCatch.mpr (obeys_bind.mpr ?_))
  have fails : ∀ {ok : ArgoCdReconcileResult → WorkerHistory → Prop} e h',
      (⟨.transaction (.claimMembers c), .ok claimed⟩ : WorkerEvent) :: [claimEvent c] <:+ h' →
      Obeys discipline (do
        transact (.failExecution c (.failMembers claimed.memberIds))
        throw e : Worker ArgoCdReconcileResult) h' ok (fun _ _ => True) := by
    intro ok e h' hs
    have released := Releases.failMembers (.inl ⟨claimed, own h' hs, rfl⟩)
    exact obeys_bind.mpr (obeys_perform.mpr ⟨⟨hc.later hs, released⟩, fun _ _ => trivial,
      fun _ _ => trivial⟩)
  cases hid : c.resourceId with
  | none =>
      simp only [ExecutionClaim.requiredResourceId, hid, liftExcept, obeys_throw]
      exact fails _ _ List.suffix_rfl
  | some instanceId =>
      simp only [ExecutionClaim.requiredResourceId, hid, liftExcept, obeys_pure]
      refine (reconcile_obeys hc hid ?_ fun h' hs => .update step (own h' hs)).mono ?_
        (fun e h' hs => fails e h' hs)
      · simp [isReconciliation, claimEvent]
      · rintro r h' ⟨hs, hname, hrec⟩
        cases hst : r.status with
        | deferred => exact defer_keeps (hc.later hs) (.deferMembers (.inl ⟨claimed, own h' hs, rfl⟩))
        | completed =>
            exact advanceTo_keeps (hc.later hs)
              (.updateInstance step hname hid (own h' hs) (hrec hst))

theorem cleanupUsers_keeps (protectedUsernames : List String)
    (step : c.step = .instanceUpdateStep02) :
    Keeps discipline (cleanupUsers protectedUsernames c) [claimEvent c] := by
  refine .perform_bind ⟨Holds.start, step⟩ fun claimed _ => ?_
  have hc := Holds.start.cons (c := c) ⟨.transaction (.claimCleanup c), .ok claimed⟩
  refine .bind (liftExcept_keeps _) fun instanceId h₁ hs₁ => ?_
  refine .bind (requiredAdminPassword_keeps _) fun credentials h₂ hs₂ => ?_
  have hs₂ := hs₁.trans hs₂
  obtain ⟨url, password⟩ := credentials
  refine .bind (.tryCatch (Coder.cleanupUserAccounts_keeps (permits (hc.later hs₂) _) _ _)
    fun e h₃ hs₃ => ?_) fun _ h₃ hs₃ => ?_
  · have own : Wrote h₃ (.claimCleanup c) claimed := (hs₂.trans hs₃).subset List.mem_cons_self
    have released := Releases.failMembers (.inr ⟨claimed, own, rfl⟩)
    exact .bind (.perform ⟨hc.later (hs₂.trans hs₃), released⟩) fun _ _ _ => .throw _
  · have hs₃ := hs₂.trans hs₃
    refine .bind (.perform ⟨hc.later hs₃, step, claimed, hs₃.subset List.mem_cons_self, rfl, rfl⟩)
      fun result _ _ => ?_
    cases result with
    | noop => exact .pure _
    | success => exact .pure _
    | pending nextJobId => exact .bind (dispatchRegisteredStep_keeps _ _) fun _ _ _ => .pure _

theorem startInstance_keeps (step : c.step = .instanceStartStep01) :
    Keeps discipline (startInstance c) [claimEvent c] := by
  refine .perform_bind trivial fun snapshot hsnap => ?_
  have hc := Holds.start.cons (c := c) ⟨.query (.instanceSnapshot c.resourceId
    (.runtimeError "Instance is missing")), .ok snapshot⟩
  refine requiredAdminPassword_bind fun password e he => ?_
  have own : ∀ h', e :: (⟨.query (.instanceSnapshot c.resourceId
      (.runtimeError "Instance is missing")), .ok snapshot⟩ : WorkerEvent) :: [claimEvent c] <:+ h' →
      Read h' (.instanceSnapshot c.resourceId (.runtimeError "Instance is missing")) snapshot :=
    fun h' hs => hs.subset (by simp)
  refine obeys_bind.mpr ((reconcile_obeys (hc.cons e) hsnap ?_
    fun h' hs => .start step (own h' hs)).mono ?_ (fun _ _ _ => trivial))
  · exact List.forall_mem_cons.mpr ⟨he, by simp [isReconciliation, claimEvent]⟩
  · rintro r h' ⟨hs, hname, hrec⟩
    cases hst : r.status with
    | deferred => exact defer_keeps ((hc.cons e).later hs) .none
    | completed =>
        exact advanceTo_keeps ((hc.cons e).later hs)
          (.startInstance step hname hsnap (own h' hs) (hrec hst))

theorem stopWorkspaces_keeps (fuel : Nat) (step : c.step = .instanceStopStep01) :
    Keeps discipline (stopWorkspaces fuel c) [claimEvent c] := by
  refine .bind (query_keeps _) fun snapshot h₁ hs₁ => ?_
  cases hid : c.resourceId with
  | none =>
      simp only [ExecutionClaim.requiredResourceId, hid, liftExcept]
      exact .throw _
  | some instanceId =>
      simp only [ExecutionClaim.requiredResourceId, hid, liftExcept]
      have hasks : Discipline.call h₁ (.instanceApplicationExists instanceId snapshot.slug
          snapshot.attachedName) := .inl ⟨c, Holds.start.later hs₁, hid, .inl step⟩
      refine .perform_bind hasks fun present _ => ?_
      have hc := (Holds.start.later hs₁).cons (c := c) ⟨.call (.instanceApplicationExists instanceId
        snapshot.slug snapshot.attachedName), .ok present⟩
      cases present with
      | false => exact advanceTo_keeps hc (.stopWorkspaces step)
      | true =>
          refine .bind (requiredAdminPassword_keeps _) fun credentials h₂ hs₂ => ?_
          obtain ⟨url, password⟩ := credentials
          refine .bind (Coder.stopActiveWorkspaces_keeps (permits (hc.later hs₂) _) _ _)
            fun _ h₃ hs₃ => ?_
          exact advanceTo_keeps (hc.later (hs₂.trans hs₃)) (.stopWorkspaces step)

theorem stopInstance_keeps (step : c.step = .instanceStopStep02) :
    Keeps discipline (stopInstance c) [claimEvent c] := by
  refine .bind (query_keeps _) fun snapshot h₁ hs₁ => ?_
  have hc : Holds h₁ c := Holds.start.later hs₁
  cases hid : c.resourceId with
  | none =>
      simp only [ExecutionClaim.requiredResourceId, hid, liftExcept]
      exact .throw _
  | some instanceId =>
      simp only [ExecutionClaim.requiredResourceId, hid, liftExcept]
      refine .perform_bind ⟨c, hc, hid, .inl step⟩ fun outcome _ => ?_
      cases outcome with
      | deferred => exact defer_keeps (hc.cons _) .none
      | completed => exact complete_keeps (hc.cons _) (.stopInstance step)

theorem removeWorkspaces_keeps (fuel : Nat) (step : c.step = .instanceDeleteStep01) :
    Keeps discipline (removeWorkspaces fuel c) [claimEvent c] := by
  refine .perform_bind trivial fun snapshot hsnap => ?_
  have hc := Holds.start.cons (c := c) ⟨.query (.instanceSnapshot c.resourceId
    (.runtimeError "Instance is missing")), .ok snapshot⟩
  cases hid : c.resourceId with
  | none =>
      simp only [ExecutionClaim.requiredResourceId, hid, liftExcept]
      exact .throw _
  | some instanceId =>
      simp only [ExecutionClaim.requiredResourceId, hid, liftExcept]
      refine requiredAdminPassword_bind fun password e he => ?_
      refine .perform_bind (.inl ⟨c, (Holds.start.cons _).cons _, hsnap, .inr step⟩) fun exists_ _ => ?_
      have hfirst : ∀ e' ∈ (⟨.call (.instanceApplicationExists snapshot.instanceId snapshot.slug
          snapshot.attachedName), .ok exists_⟩ : WorkerEvent) :: e ::
          ⟨.query (.instanceSnapshot (some instanceId) (.runtimeError "Instance is missing")),
            .ok snapshot⟩ :: [claimEvent c], isReconciliation e'.op = false := by
        refine List.forall_mem_cons.mpr ⟨rfl, List.forall_mem_cons.mpr ⟨he, ?_⟩⟩
        simp [isReconciliation, claimEvent]
      have hc' : Holds ((⟨.call (.instanceApplicationExists snapshot.instanceId snapshot.slug
          snapshot.attachedName), .ok exists_⟩ : WorkerEvent) :: e ::
          ⟨.query (.instanceSnapshot (some instanceId) (.runtimeError "Instance is missing")),
            .ok snapshot⟩ :: [claimEvent c]) c := ((Holds.start.cons _).cons _).cons _
      have finish : ∀ restored h', Holds h' c → Keeps discipline (match restored with
          | none => defer c .none
          | some restoredName => do
            if ← transact (.storeStartedApplication c restoredName) then
              let _ ← Coder.deleteAllWorkspaces instanceId password
                (heartbeatOwned c (.runtimeError "Instance delete attempt is no longer current")) fuel
              advanceTo c .instanceDeleteStep02 .none
            else return .noop) h' := by
        intro restored h' hc'
        cases restored with
        | none => exact defer_keeps hc' .none
        | some restoredName =>
            refine .bind (.perform ⟨hc', step⟩) fun stored h₁ hs₁ => ?_
            refine .ite (fun _ => ?_) fun _ => .pure _
            have hc₁ := hc'.later hs₁
            refine .run_bind (Coder.deleteAllWorkspaces_keeps (permits hc₁ _) _ _) fun ids run hrun => ?_
            refine advanceTo_keeps (hc₁.later (List.suffix_append _ _))
              (.removeWorkspaces step hid ⟨[], run, h₁, ids, by simp, hrun⟩)
      cases exists_ with
      | true => exact finish (some snapshot.attachedName) _ hc'
      | false =>
          refine obeys_bind.mpr ((reconcile_obeys hc' hsnap hfirst
            fun _ _ => .restore (.inr step)).mono ?_ (fun _ _ _ => trivial))
          rintro r h' ⟨hs, -, -⟩
          cases r.status with
          | deferred => exact finish none _ (hc'.later hs)
          | completed => exact finish (some (some r.applicationName)) _ (hc'.later hs)

theorem removeInstance_keeps (step : c.step = .instanceDeleteStep02) :
    Keeps discipline (removeInstance c) [claimEvent c] := by
  refine .bind (query_keeps _) fun snapshot h₁ hs₁ => ?_
  have hc : Holds h₁ c := Holds.start.later hs₁
  cases hid : c.resourceId with
  | none =>
      simp only [ExecutionClaim.requiredResourceId, hid, liftExcept]
      exact .throw _
  | some instanceId =>
      simp only [ExecutionClaim.requiredResourceId, hid, liftExcept]
      refine .perform_bind ⟨c, hc, hid, .inr step⟩ fun outcome _ => ?_
      cases outcome with
      | deferred => exact defer_keeps (hc.cons _) .none
      | completed =>
          exact advanceTo_keeps (hc.cons _) (.removeInstance step hid List.mem_cons_self)

theorem removeSchema_keeps (step : c.step = .instanceDeleteStep03) :
    Keeps discipline (removeSchema c) [claimEvent c] := by
  cases hid : c.resourceId with
  | none =>
      simp only [removeSchema, ExecutionClaim.requiredResourceId, hid, liftExcept]
      exact .throw _
  | some instanceId =>
      simp only [removeSchema, ExecutionClaim.requiredResourceId, hid, liftExcept]
      refine .perform_bind trivial fun target _ => ?_
      have hc := Holds.start.cons (c := c) ⟨.query (.managedDatabaseTarget instanceId), .ok target⟩
      cases target with
      | none =>
          exact advanceTo_keeps hc (.removeSchema step hid (.inl List.mem_cons_self))
      | some target =>
          obtain ⟨target, name⟩ := target
          refine .perform_bind ⟨c, instanceId, name, hc, step, hid, List.mem_cons_self⟩ fun _ _ => ?_
          exact advanceTo_keeps (hc.cons _) (.removeSchema step hid (.inr ⟨target, name,
            List.mem_cons_of_mem _ List.mem_cons_self, List.mem_cons_self⟩))

theorem removeLocalConfiguration_keeps (step : c.step = .instanceDeleteStep04) :
    Keeps discipline (removeLocalConfiguration c) [claimEvent c] :=
  .bind (.perform ⟨Holds.start, step⟩) fun _ _ _ => .pure _

end Tasks

section Publication
variable {h : WorkerHistory} {c : ExecutionClaim}

theorem storeTemplateRemoteIds_keeps (hc : Holds h c) (assignmentId : UUID)
    (organizationId templateId versionId : Option UUID) :
    Keeps discipline (transact (.storeTemplateRemoteIds c assignmentId organizationId templateId
      versionId)) h := .perform hc

theorem managedRemoteTemplate_keeps (url : InstanceUrl) (organizationId : UUID) (name : String)
    (persistedTemplateId persistedVersionId : Option UUID) :
    Keeps discipline (managedRemoteTemplate url organizationId name persistedTemplateId
      persistedVersionId) h := by
  rw [managedRemoteTemplate_eq]
  refine .bind ?_ fun persisted _ _ => .bind (.perform trivial) fun named _ _ => ?_
  · cases persistedTemplateId with
    | none => exact .pure _
    | some templateId => exact .perform trivial
  · cases persisted <;> cases named
    · exact .pure _
    · exact .ite (fun _ => .pure _) fun _ => .throw _
    · exact .pure _
    · exact .ite (fun _ => .throw _) fun _ => .pure _

theorem versionOfName_keeps (organizationId : UUID) (snapshot : TemplateSourceSnapshot)
    (archive : TemplateArchive) (preparation : TemplateDeploymentPreparation)
    (remoteTemplate : Option CoderTemplate) (foundByName : Bool) :
    Keeps discipline (versionOfName organizationId snapshot archive preparation remoteTemplate
      foundByName) h :=
  .ite (fun _ => .perform trivial) fun _ => .pure _

theorem recoveredVersion_keeps (preparation : TemplateDeploymentPreparation)
    (named : Option CoderTemplateVersion) :
    Keeps discipline (recoveredVersion preparation named) h := by
  cases named with
  | some version => exact .pure _
  | none =>
      unfold recoveredVersion
      cases preparation.persistedVersionId with
      | none => exact .pure _
      | some versionId => exact .perform trivial

theorem importedVersion_keeps (hc : Holds h c) (assignmentId organizationId : UUID)
    (snapshot : TemplateSourceSnapshot) (archive : TemplateArchive)
    (preparation : TemplateDeploymentPreparation) (remoteTemplate : Option CoderTemplate)
    (recovered : Option CoderTemplateVersion) :
    Keeps discipline (importedVersion c assignmentId organizationId snapshot archive preparation
      remoteTemplate recovered) h := by
  cases recovered with
  | some version => exact .pure _
  | none =>
      refine .bind (.perform trivial) fun fileId h₁ hs₁ => ?_
      refine .bind (.perform trivial) fun version h₂ hs₂ => ?_
      exact .bind (storeTemplateRemoteIds_keeps (hc.later (hs₁.trans hs₂)) _ _ _ _)
        fun _ _ _ => .pure _

theorem publishedVersion_keeps (hc : Holds h c) (assignmentId organizationId : UUID)
    (snapshot : TemplateSourceSnapshot) (archive : TemplateArchive)
    (preparation : TemplateDeploymentPreparation) (remoteTemplate : Option CoderTemplate)
    (foundByName : Bool) :
    Keeps discipline (publishedVersion c assignmentId organizationId snapshot archive preparation
      remoteTemplate foundByName) h := by
  rw [publishedVersion_eq]
  refine .bind (versionOfName_keeps _ _ _ _ _ _) fun named h₁ hs₁ => ?_
  refine .bind (recoveredVersion_keeps _ _) fun recovered h₂ hs₂ => ?_
  exact importedVersion_keeps (hc.later (hs₁.trans hs₂)) _ _ _ _ _ _ _

theorem readyVersion_keeps {heartbeat : Worker Unit} {url : InstanceUrl}
    (permits : Permits discipline h heartbeat) (fuel : Nat) (version : CoderTemplateVersion) :
    Keeps discipline (readyVersion url heartbeat fuel version) h := by
  have polled : ∀ h' versionId, h <:+ h' →
      discipline.guard h' (.call (.templateVersion url versionId)) := fun _ _ _ => trivial
  exact .ite (fun _ => .pure _) fun _ => waitTemplateVersion_keeps permits polled _ _

theorem unarchiveVersion_keeps (url : InstanceUrl) (version : CoderTemplateVersion) :
    Keeps discipline (unarchiveVersion url version) h :=
  .ite (fun _ => .perform trivial) fun _ => .pure _

theorem activateVersion_keeps (hc : Holds h c) (assignmentId organizationId : UUID)
    (snapshot : TemplateSourceSnapshot) (preparation : TemplateDeploymentPreparation)
    (version : CoderTemplateVersion) (remoteTemplate : Option CoderTemplate) :
    Keeps discipline (activateVersion c assignmentId organizationId snapshot preparation version
      remoteTemplate) h := by
  cases remoteTemplate with
  | none =>
      exact .bind (.perform trivial) fun _ _ hs =>
        storeTemplateRemoteIds_keeps (hc.later hs) _ _ _ _
  | some template => exact .perform trivial

theorem publishTemplate_keeps (hc : Holds h c) (assignmentId : UUID)
    (snapshot : TemplateSourceSnapshot) (archive : TemplateArchive)
    (preparation : TemplateDeploymentPreparation) (lost : WorkerError) (fuel : Nat) :
    Keeps discipline (publishTemplate c assignmentId snapshot archive preparation
      (heartbeatOwned c lost) fuel) h := by
  rw [publishTemplate_eq]
  refine .bind (.perform trivial) fun _ h₁ hs₁ => ?_
  refine .bind (.perform trivial) fun organizationId h₂ hs₂ => ?_
  refine .bind (managedRemoteTemplate_keeps _ _ _ _ _) fun found h₃ hs₃ => ?_
  have hc₃ := hc.later ((hs₁.trans hs₂).trans hs₃)
  refine .bind (storeTemplateRemoteIds_keeps hc₃ _ _ _ _) fun _ h₄ hs₄ => ?_
  refine .bind (publishedVersion_keeps (hc₃.later hs₄) _ _ _ _ _ _ _) fun version h₅ hs₅ => ?_
  have hc₅ := hc₃.later (hs₄.trans hs₅)
  refine .bind (readyVersion_keeps (permits hc₅ lost) _ _) fun version h₆ hs₆ => ?_
  refine .bind (unarchiveVersion_keeps _ _) fun _ h₇ hs₇ => ?_
  exact activateVersion_keeps (hc₅.later (hs₆.trans hs₇)) _ _ _ _ _ _

theorem syncTemplateTarget_keeps (hc : Holds h c) (snapshot : TemplateSourceSnapshot)
    (archive : TemplateArchive) (assignmentId : UUID) (lost : WorkerError) (fuel : Nat) :
    Keeps discipline (syncTemplateTarget snapshot archive assignmentId c (heartbeatOwned c lost)
      fuel) h := by
  refine .bind (.perform hc) fun preparation h₁ hs₁ => ?_
  have hc₁ := hc.later hs₁
  refine .ite (fun _ => .pure _) fun _ => ?_
  refine .bind (.tryCatch (publishTemplate_keeps hc₁ _ _ _ _ _ _) fun e h₂ hs₂ => ?_)
    fun _ h₂ hs₂ => ?_
  · split
    · exact .throw _
    · exact .bind (.perform (hc₁.later hs₂)) fun _ _ _ => .throw _
  · exact .bind (.perform (hc₁.later hs₂)) fun _ _ _ => .pure _

end Publication

namespace Tasks
variable {c : ExecutionClaim}

theorem createTemplate_keeps (fuel : Nat) (step : c.step = .templateAssignmentCreateStep01) :
    Keeps discipline (createTemplate fuel c) [claimEvent c] := by
  refine .bind (liftExcept_keeps _) fun assignmentId h₁ hs₁ => ?_
  refine .bind (query_keeps _) fun templateId h₂ hs₂ => ?_
  refine .bind (query_keeps _) fun snapshot h₃ hs₃ => ?_
  refine .bind (.perform trivial) fun archive h₄ hs₄ => ?_
  have hc : Holds h₄ c := Holds.start.later ((hs₁.trans hs₂).trans (hs₃.trans hs₄))
  refine .bind (syncTemplateTarget_keeps hc _ _ _ _ _) fun _ h₅ hs₅ => ?_
  exact complete_keeps (hc.later hs₅) (.createTemplate step)

theorem syncTarget_keeps {h : WorkerHistory} (hc : Holds h c) (snapshot : TemplateSourceSnapshot)
    (archive : TemplateArchive) (fuel failures : Nat) (assignmentId : UUID) :
    Keeps discipline (syncTarget snapshot archive c fuel failures assignmentId) h := by
  refine .bind (heartbeatOwned_keeps hc _) fun _ h₁ hs₁ => ?_
  refine .tryCatch (.bind (syncTemplateTarget_keeps (hc.later hs₁) _ _ _ _ _) fun _ _ _ => .pure _)
    fun e _ _ => ?_
  split
  · exact .throw _
  · exact .pure _

theorem syncTemplate_keeps (fuel : Nat) (step : c.step = .templateSyncStep01) :
    Keeps discipline (syncTemplate fuel c) [claimEvent c] := by
  refine .bind (liftExcept_keeps _) fun templateId h₁ hs₁ => ?_
  refine .bind (query_keeps _) fun assignmentIds h₂ hs₂ => ?_
  have hc : Holds h₂ c := Holds.start.later (hs₁.trans hs₂)
  refine .ite (fun _ => ?_) fun _ => ?_
  · exact complete_keeps hc (.sync (.inl step))
  · refine .bind (query_keeps _) fun snapshot h₃ hs₃ => ?_
    refine .bind (.perform trivial) fun archive h₄ hs₄ => ?_
    have hc₄ := hc.later (hs₃.trans hs₄)
    refine .bind (foldEach_keeps _ _ fun failures assignmentId h' hs =>
      syncTarget_keeps (hc₄.later hs) _ _ _ _ _) fun failures h₅ hs₅ => ?_
    exact .ite (fun _ => .throw _) fun _ => complete_keeps (hc₄.later hs₅) (.sync (.inl step))

theorem deleteTemplate_keeps (fuel : Nat) (step : c.step = .templateAssignmentDeleteStep01) :
    Keeps discipline (deleteTemplate fuel c) [claimEvent c] := by
  cases hid : c.resourceId with
  | none =>
      simp only [deleteTemplate, ExecutionClaim.requiredResourceId, hid, liftExcept]
      exact .throw _
  | some assignmentId =>
      simp only [deleteTemplate, ExecutionClaim.requiredResourceId, hid, liftExcept]
      refine .perform_bind trivial fun snapshot _ => ?_
      have hc := Holds.start.cons (c := c) ⟨.query (.removalSnapshot assignmentId), .ok snapshot⟩
      have finish : ∀ h', (⟨.query (.removalSnapshot assignmentId), .ok snapshot⟩ : WorkerEvent) ::
          [claimEvent c] <:+ h' → Keeps discipline (do
            return if ← transact (.removeLocalAssignment c snapshot) then TaskStatus.deleted
              else .noop) h' := by
        intro h' hs
        exact .bind (.perform ⟨hc.later hs, step, assignmentId, hid, hs.subset List.mem_cons_self⟩)
          fun _ _ _ => .pure _
      cases snapshot.coderTemplateId with
      | none => exact finish _ List.suffix_rfl
      | some coderTemplateId =>
          cases snapshot.password with
          | none => exact finish _ List.suffix_rfl
          | some password =>
              refine .bind (Coder.deleteTemplateWorkspaces_keeps (permits hc _) _ _ _)
                fun _ h₁ hs₁ => ?_
              refine .bind (heartbeatOwned_keeps (hc.later hs₁) _) fun _ h₂ hs₂ => ?_
              refine .bind (.perform trivial) fun _ h₃ hs₃ => ?_
              refine .bind (.perform trivial) fun _ h₄ hs₄ => ?_
              exact finish h₄ ((hs₁.trans hs₂).trans (hs₃.trans hs₄))

theorem syncDatabase_keeps (step : c.step = .databaseSyncStep01) :
    Keeps discipline (syncDatabase c) [claimEvent c] :=
  complete_keeps Holds.start (.sync (.inr step))

end Tasks

section Workspaces
variable {h : WorkerHistory} {c : ExecutionClaim}

theorem workspacePermits (hc : Holds h c) : Permits discipline h (workspaceHeartbeat c) := by
  refine .always ?_ fun _ hs => .bind (.perform (hc.later hs)) fun _ _ _ => .pure ()
  intro h' _ β k hk
  cases k <;> first | exact trivial | rcases hk with ⟨⟨⟩⟩ | ⟨⟨⟩⟩

theorem findRemoteWorkspace_keeps (snapshot : WorkspaceRemoteSnapshot) :
    Keeps discipline (findRemoteWorkspace snapshot) h := by
  unfold findRemoteWorkspace
  cases snapshot.coderWorkspaceId with
  | none => exact .perform trivial
  | some workspaceId =>
      refine .bind (.perform trivial) fun remote h' _ => ?_
      cases remote with
      | some remote => exact .pure _
      | none => exact .perform trivial

theorem requireMatchingTemplate_keeps (remote : CoderWorkspace)
    (snapshot : WorkspaceRemoteSnapshot) :
    Keeps discipline (requireMatchingTemplate remote snapshot) h :=
  .ite (fun _ => .throw _) fun _ => .pure _

theorem completeWorkspaceDeletion_keeps (hc : Holds h c) (step : c.step = .workspaceDeleteStep01) :
    Keeps discipline (completeWorkspaceDeletion c) h :=
  .bind (.perform ⟨hc, .deleteWorkspace step⟩) fun _ _ _ => .pure _

theorem convergeWorkspace_keeps {finish : CoderWorkspaceBuild → Worker TaskStatus}
    (hc : Holds h c) (snapshot : WorkspaceRemoteSnapshot) (remote : CoderWorkspace)
    (build : CoderWorkspaceBuild) (successStatus : BuildStatus) (fuel : Nat)
    (hfinish : ∀ build h', Holds h' c → Keeps discipline (finish build) h') :
    Keeps discipline (do
      if ← transact (.storeWorkspaceRemoteIds c remote.id build.id) then
        let build ← waitWorkspaceBuild snapshot.instanceUrl successStatus (workspaceHeartbeat c)
          fuel build
        finish build
      else return .noop) h := by
  refine .bind (.perform hc) fun stored h₁ hs₁ => ?_
  refine .ite (fun _ => ?_) fun _ => .pure _
  have hc₁ := hc.later hs₁
  exact .bind (waitWorkspaceBuild_keeps (workspacePermits hc₁) _ _ _) fun build h₂ hs₂ =>
    hfinish build h₂ (hc₁.later hs₂)

end Workspaces

namespace Tasks
variable {c : ExecutionClaim}

theorem creationBuild_keeps {h : WorkerHistory} (snapshot : WorkspaceRemoteSnapshot)
    (remote : CoderWorkspace) (created : Bool) :
    Keeps discipline (creationBuild snapshot remote created) h := by
  have start : ∀ current h', Keeps discipline
      (if current ≠ snapshot.parameters ∨ restartStatuses.contains remote.latestBuild.status then
        request (.createWorkspaceStartBuild snapshot.instanceUrl remote.id snapshot.parameters)
      else pure remote.latestBuild) h' :=
    fun current h' => .ite (fun _ => .perform trivial) fun _ => .pure _
  cases created with
  | true => exact .pure _
  | false =>
      by_cases ht : remote.latestBuild.transition = .start
      · simp only [creationBuild, ht, if_true]
        exact .bind (.perform trivial) fun current h' _ => start current h'
      · simp only [creationBuild, ht, if_false]
        exact start [] h

theorem createWorkspace_keeps (fuel : Nat) (step : c.step = .workspaceCreateStep01) :
    Keeps discipline (createWorkspace fuel c) [claimEvent c] := by
  refine .bind (liftExcept_keeps _) fun workspaceId h₁ hs₁ => ?_
  refine .bind (query_keeps _) fun snapshot h₂ hs₂ => ?_
  refine .bind (.perform trivial) fun _ h₃ hs₃ => ?_
  refine .bind (findRemoteWorkspace_keeps _) fun found h₄ hs₄ => ?_
  have hc : Holds h₄ c := Holds.start.later ((hs₁.trans hs₂).trans (hs₃.trans hs₄))
  have converge : ∀ remote : CoderWorkspace, ∀ h', Holds h' c → Keeps discipline (do
      requireMatchingTemplate remote snapshot
      let build ← creationBuild snapshot remote found.isNone
      if ← transact (.storeWorkspaceRemoteIds c remote.id build.id) then
        let build ← waitWorkspaceBuild snapshot.instanceUrl .running (workspaceHeartbeat c) fuel
          build
        completeWorkspace c (some remote.id) (some build.id) true
      else return .noop) h' := by
    intro remote h' hc'
    refine .bind (requireMatchingTemplate_keeps _ _) fun _ h₅ hs₅ => ?_
    refine .bind (creationBuild_keeps _ _ _) fun build h₆ hs₆ => ?_
    exact convergeWorkspace_keeps (hc'.later (hs₅.trans hs₆)) _ _ _ _ _ fun build h₇ hc₇ =>
      complete_keeps hc₇ (.convergeWorkspace (.inl step))
  cases found with
  | some remote => exact converge remote h₄ hc
  | none => exact .bind (.perform trivial) fun remote h₅ hs₅ => converge remote h₅ (hc.later hs₅)

theorem updateBuild_keeps {h : WorkerHistory} (snapshot : WorkspaceRemoteSnapshot)
    (remote : CoderWorkspace) : Keeps discipline (updateBuild snapshot remote) h := by
  refine .ite (fun _ => ?_) fun _ => .perform trivial
  refine .bind (.perform trivial) fun current h₁ _ => ?_
  exact .ite (fun _ => .pure _) fun _ => .perform trivial

theorem updateWorkspace_keeps (fuel : Nat) (step : c.step = .workspaceUpdateStep01) :
    Keeps discipline (updateWorkspace fuel c) [claimEvent c] := by
  refine .bind (liftExcept_keeps _) fun workspaceId h₁ hs₁ => ?_
  refine .bind (query_keeps _) fun snapshot h₂ hs₂ => ?_
  refine .bind (.perform trivial) fun _ h₃ hs₃ => ?_
  refine .bind (findRemoteWorkspace_keeps _) fun found h₄ hs₄ => ?_
  have hc : Holds h₄ c := Holds.start.later ((hs₁.trans hs₂).trans (hs₃.trans hs₄))
  cases found with
  | none => exact .throw _
  | some remote =>
      have converge : ∀ h', Holds h' c → Keeps discipline (do
          if snapshot.appliedParametersRevision ≠ some snapshot.parametersRevision then
            let build ← updateBuild snapshot remote
            if ← transact (.storeWorkspaceRemoteIds c remote.id build.id) then
              let build ← waitWorkspaceBuild snapshot.instanceUrl .running (workspaceHeartbeat c)
                fuel build
              completeWorkspace c (some remote.id) (some build.id) true
            else return .noop
          else completeWorkspace c (some remote.id) none false) h' := by
        intro h' hc'
        refine .ite (fun _ => ?_) fun _ => complete_keeps hc' (.convergeWorkspace (.inr step))
        refine .bind (updateBuild_keeps _ _) fun build h₅ hs₅ => ?_
        exact convergeWorkspace_keeps (hc'.later hs₅) _ _ _ _ _ fun build h₆ hc₆ =>
          complete_keeps hc₆ (.convergeWorkspace (.inr step))
      refine .bind (requireMatchingTemplate_keeps _ _) fun _ h₅ hs₅ => ?_
      have hc₅ := hc.later hs₅
      by_cases hname : remote.name = snapshot.name
      · simp only [hname, ne_eq, not_true_eq_false, if_false]
        exact converge h₅ hc₅
      · simp only [hname, ne_eq, not_false_eq_true, if_true]
        exact .bind (.perform trivial) fun _ h₆ hs₆ => converge h₆ (hc₅.later hs₆)

theorem deletionBuild_keeps {h : WorkerHistory} (snapshot : WorkspaceRemoteSnapshot)
    (remote : CoderWorkspace) : Keeps discipline (deletionBuild snapshot remote) h :=
  .ite (fun _ => .perform trivial) fun _ => .pure _

theorem deleteWorkspace_keeps (fuel : Nat) (step : c.step = .workspaceDeleteStep01) :
    Keeps discipline (deleteWorkspace fuel c) [claimEvent c] := by
  refine .bind (liftExcept_keeps _) fun workspaceId h₁ hs₁ => ?_
  refine .bind (query_keeps _) fun snapshot h₂ hs₂ => ?_
  refine .bind (.perform trivial) fun _ h₃ hs₃ => ?_
  refine .bind (findRemoteWorkspace_keeps _) fun found h₄ hs₄ => ?_
  have hc : Holds h₄ c := Holds.start.later ((hs₁.trans hs₂).trans (hs₃.trans hs₄))
  cases found with
  | none => exact completeWorkspaceDeletion_keeps hc step
  | some remote =>
      refine .bind (deletionBuild_keeps _ _) fun build h₅ hs₅ => ?_
      exact convergeWorkspace_keeps (hc.later hs₅) _ _ _ _ _ fun build h₆ hc₆ =>
        completeWorkspaceDeletion_keeps hc₆ step

theorem retryJob_keeps {h : WorkerHistory} (staleBefore : Time) (counts : Nat × Nat)
    (jobId : UUID) : Keeps discipline (retryJob staleBefore counts jobId) h := by
  refine .bind (.perform trivial) fun task h₁ hs₁ => ?_
  cases task with
  | none => exact .pure _
  | some task => exact .bind (dispatchRegisteredStep_keeps _ _) fun _ _ _ => .pure _

theorem retryJobExecutions_keeps {h : WorkerHistory} (jobStaleAfterSeconds : Nat) :
    Keeps discipline (retryJobExecutions jobStaleAfterSeconds) h := by
  refine .bind (query_keeps _) fun now h₁ hs₁ => ?_
  refine .bind (query_keeps _) fun jobIds h₂ hs₂ => ?_
  exact foldEach_keeps _ _ fun counts jobId _ _ => retryJob_keeps _ _ _

theorem observeInstance_keeps {h : WorkerHistory} (counts : ObservationCounts)
    {snapshot : InstanceStateSnapshot}
    (read : ObservesName h snapshot.id snapshot.slug snapshot.attachedName) :
    Keeps discipline (observeInstance counts snapshot) h := by
  refine .bind (.tryCatch (.bind (.perform (.inr read)) fun _ _ _ => .pure _) fun _ _ _ => .pure _)
    fun observation h₁ _ => ?_
  cases observation with
  | none => exact .pure _
  | some applicationExists => exact .bind (.perform trivial) fun _ _ _ => .pure _

theorem checkInstanceStates_keeps {h : WorkerHistory} :
    Keeps discipline checkInstanceStates h := by
  refine .perform_bind trivial fun instances _ => ?_
  refine foldEach_keeps_mem _ _ fun snapshot hmem counts h' hs => observeInstance_keeps _ ?_
  exact ⟨instances, hs.subset List.mem_cons_self, snapshot, hmem, rfl, rfl, rfl⟩

end Tasks

namespace Body
variable {c : ExecutionClaim}

theorem operation_keeps (protectedUsernames : List String) (fuel : Nat) {step : StepName}
    (hstep : c.step = step) :
    Keeps discipline (operation protectedUsernames fuel step c) [claimEvent c] := by
  cases step with
  | instanceCreateStep01 => exact Tasks.createSchema_keeps hstep
  | instanceCreateStep02 => exact Tasks.createInstance_keeps hstep
  | instanceCreateStep03 => exact Tasks.bootstrapAdmin_keeps hstep
  | instanceUpdateStep01 => exact Tasks.updateInstance_keeps hstep
  | instanceUpdateStep02 => exact Tasks.cleanupUsers_keeps _ hstep
  | instanceStartStep01 => exact Tasks.startInstance_keeps hstep
  | instanceStopStep01 => exact Tasks.stopWorkspaces_keeps _ hstep
  | instanceStopStep02 => exact Tasks.stopInstance_keeps hstep
  | instanceDeleteStep01 => exact Tasks.removeWorkspaces_keeps _ hstep
  | instanceDeleteStep02 => exact Tasks.removeInstance_keeps hstep
  | instanceDeleteStep03 => exact Tasks.removeSchema_keeps hstep
  | instanceDeleteStep04 => exact Tasks.removeLocalConfiguration_keeps hstep
  | workspaceCreateStep01 => exact Tasks.createWorkspace_keeps _ hstep
  | workspaceUpdateStep01 => exact Tasks.updateWorkspace_keeps _ hstep
  | workspaceDeleteStep01 => exact Tasks.deleteWorkspace_keeps _ hstep
  | databaseSyncStep01 => exact Tasks.syncDatabase_keeps hstep
  | templateSyncStep01 => exact Tasks.syncTemplate_keeps _ hstep
  | templateAssignmentCreateStep01 => exact Tasks.createTemplate_keeps _ hstep
  | templateAssignmentDeleteStep01 => exact Tasks.deleteTemplate_keeps _ hstep

theorem runClaimedStep_keeps (jobId : UUID) {step : StepName}
    {operation : ExecutionClaim → Worker TaskStatus}
    (hop : ∀ c : ExecutionClaim, c.step = step → Keeps discipline (operation c) [claimEvent c]) :
    Keeps discipline (runClaimedStep jobId step.task operation) [] := by
  refine .perform_bind rfl fun claim hclaim => ?_
  cases claim with
  | none => exact .pure _
  | some c =>
      obtain ⟨rfl, htask, hstep⟩ : c.jobId = jobId ∧ c.taskName = step.task ∧
        c.step.task = step.task := hclaim
      have hs : c.step = step := TaskName.registered.inj hstep
      rw [← htask]
      refine .tryCatch (hop c hs) fun e h₁ hs₁ => ?_
      exact .bind (.perform ⟨Holds.start.later hs₁, .none⟩) fun _ _ _ => .throw _

theorem program_keeps (b : Body) : Keeps discipline b.program [] := by
  cases b with
  | deliver task jobId protectedUsernames fuel =>
      cases task with
      | registered step =>
          refine .bind (runClaimedStep_keeps jobId fun c hc => ?_) fun _ _ _ => .pure ()
          exact operation_keeps _ _ hc
      | unknown name => exact .pure ()
  | retryJobExecutions jobStaleAfterSeconds =>
      exact .bind (Tasks.retryJobExecutions_keeps _) fun _ _ _ => .pure ()
  | checkInstanceStates => exact .bind Tasks.checkInstanceStates_keeps fun _ _ _ => .pure ()

end Body
end CoderManager
