import CoderManager.Discipline.Applications
import CoderManager.Results.MemberChanges
import CoderManager.Results.SchemaIsolation

/-!
# Every instance keeps its Application

The name of an Application is made from the slug of its instance when Argo CD is first
asked for it. It is recorded once: whatever else an attempt asks Argo CD, and whenever, is
about the Application of its own instance.
-/
namespace CoderManager
open Programs Tables Leases

/-- The name a transaction gives to the Application of an instance. -/
inductive Renames (s s' : Store) (id : UUID) (i : Instance) :
    {β : Type} → Transaction β → β → Option String → Prop
  | advanced {c : ExecutionClaim} {task : TaskName} {step : StepName} {name : String}
      {missing : WorkerError} {job : JobExecution} (owned : s.ownedExecution c = some job)
      (resource : job.lease.owner = some (.instance, some id)) (ended : s'.ownedExecution c = none) :
      Renames s s' id i (.advanceExecution c task step (.storeApplicationName name missing)) true
        (some name)
  | started {c : ExecutionClaim} {restored : Option String} {job : JobExecution}
      (owned : s.ownedExecution c = some job)
      (resource : job.lease.owner = some (.instance, some id)) :
      Renames s s' id i (.storeStartedApplication c restored) true
        (restored <|> i.argocdApplicationName)
  | finalised {c : ExecutionClaim} {memberIds : List UUID} {name : String}
      {answer : Store.UpdateResult} {job : JobExecution} (owned : s.ownedExecution c = some job)
      (resource : job.lease.owner = some (.instance, some id)) (ended : s'.ownedExecution c = none) :
      Renames s s' id i (.finalizeUpdate c memberIds name) answer (some name)

section Renaming
variable {s s' s₁ : Store} {id : UUID} {i' : Instance} {job : JobExecution} {c : ExecutionClaim}

theorem Store.unowned (idle : ∀ job, s.jobs.lookup c.jobId = some job → job.status ≠ .running) :
    s.ownedExecution c = none := by
  refine Option.eq_none_iff_forall_not_mem.mpr fun job howned => ?_
  obtain ⟨hrow, -, -, -, hrunning, -⟩ := Store.ownedExecution_eq_some.mp howned
  exact idle job hrow hrunning

theorem Store.idle_modifyJob {g : JobExecution → JobExecution} {f : Lifecycle → Lifecycle}
    (idle : ∀ job, (g job).status ≠ .running) {job' : JobExecution}
    (row' : ((s.modifyJob c.jobId g).modifyResource job f).jobs.lookup c.jobId = some job') :
    job'.status ≠ .running := by
  rw [Store.jobs_modifyResource] at row'
  obtain ⟨job₀, -, rfl⟩ := Option.map_eq_some_iff.mp ((Table.lookup_modify_self _ _ _).symm.trans row')
  exact idle job₀

theorem Store.name_modifyResource {jobId : UUID} {g : JobExecution → JobExecution}
    {f : Lifecycle → Lifecycle}
    (row' : ((s.modifyJob jobId g).modifyResource job f).instances.lookup id = some i') :
    ∃ i, s.instances.lookup id = some i ∧ i'.argocdApplicationName = i.argocdApplicationName := by
  obtain ⟨i, hi, rfl | ⟨-, rfl⟩⟩ := Store.instances_modifyResource_cases row'
  · exact ⟨_, hi, rfl⟩
  · exact ⟨i, hi, rfl⟩

/-- A callback of an attempt that goes on elsewhere names nothing. -/
theorem Mutated.name_kept {m : Mutation} (h : Mutated s job m s₁)
    (other : ∀ name missing, m ≠ .storeApplicationName name missing) {i₁ : Instance}
    (row : s₁.instances.lookup id = some i₁) :
    ∃ i, s.instances.lookup id = some i ∧ i₁.argocdApplicationName = i.argocdApplicationName := by
  obtain ⟨i, hi, rfl | ⟨-, -, ⟨name, missing, rfl, -⟩ | ⟨-, rfl⟩ | ⟨-, _, -, rfl⟩⟩⟩ := h.instance_cases row
  · exact ⟨_, hi, rfl⟩
  · exact absurd rfl (other name missing)
  · exact ⟨_, hi, rfl⟩
  · exact ⟨_, hi, rfl⟩

theorem Releases.names_nothing {h : WorkerHistory} {m : Mutation} (hr : Releases h c m)
    (name : String) (missing : WorkerError) : m ≠ .storeApplicationName name missing := by
  cases hr <;> intro heq <;> cases heq

theorem Concludes.names_nothing {m : Mutation} {delete : Bool} (hd : Concludes c m delete)
    (name : String) (missing : WorkerError) : m ≠ .storeApplicationName name missing := by
  cases hd <;> intro heq <;> cases heq

theorem Mutated.name_released {m : Mutation} (h : Mutated s job m s₁)
    (other : ∀ name missing, m ≠ .storeApplicationName name missing)
    (released : ∃ i₁, s₁.instances.lookup id = some i₁ ∧
      i'.argocdApplicationName = i₁.argocdApplicationName) :
    ∃ i, s.instances.lookup id = some i ∧ i'.argocdApplicationName = i.argocdApplicationName := by
  obtain ⟨i₁, hi₁, hname⟩ := released
  obtain ⟨i, hi, heq⟩ := h.name_kept other hi₁
  exact ⟨i, hi, hname.trans heq⟩

theorem Store.name_modify {id' : UUID} {g : Instance → Instance}
    (row' : (s.instances.modify id' g).lookup id = some i')
    (same : ∀ i, (g i).argocdApplicationName = i.argocdApplicationName) :
    ∃ i, s.instances.lookup id = some i ∧ i'.argocdApplicationName = i.argocdApplicationName := by
  obtain ⟨i, hi, rfl | ⟨-, rfl⟩⟩ := Store.instances_modify_cases row'
  · exact ⟨_, hi, rfl⟩
  · exact ⟨i, hi, same i⟩

/-- The end of an update names the Application of its instance. -/
theorem Store.name_finalised {id' : UUID} {i₀ : Instance} {memberIds : List UUID} {name : String}
    (row : s.ownedInstance job = some (id', i₀))
    (row' : ((Store.finalizeMembers { s with
      instances := s.instances.modify id' fun i => { i with argocdApplicationName := some name } }
      id' memberIds).settleExecution c job).instances.lookup id = some i') :
    ∃ i, s.instances.lookup id = some i ∧ (i'.argocdApplicationName = i.argocdApplicationName ∨
      (job.lease.owner = some (.instance, some id) ∧ i'.argocdApplicationName = some name)) := by
  obtain ⟨htype, hid, -⟩ := Store.ownedInstance_eq_some.mp row
  obtain ⟨i₂, hi₂, hname⟩ := Store.name_modifyResource row'
  obtain ⟨i, hi, rfl | ⟨rfl, rfl⟩⟩ := Store.instances_modify_cases hi₂
  · exact ⟨_, hi, .inl hname⟩
  · exact ⟨i, hi, .inr ⟨JobExecution.lease_owner.mpr ⟨htype, hid⟩, hname⟩⟩

open Store in
/-- The rows a worker leaves behind keep the names of their Applications, or one of three
transactions names one. -/
theorem Committed.renamed {β : Type} {t : Transaction β} {a : β} {h : WorkerHistory}
    (hc : Committed s t a s') (hg : Discipline.transaction h t)
    (row' : s'.instances.lookup id = some i') :
    ∃ i, s.instances.lookup id = some i ∧ (i'.argocdApplicationName = i.argocdApplicationName ∨
      Renames s s' id i t a i'.argocdApplicationName) := by
  have kept : (∃ i, s.instances.lookup id = some i ∧
      i'.argocdApplicationName = i.argocdApplicationName) →
      ∃ i, s.instances.lookup id = some i ∧ (i'.argocdApplicationName = i.argocdApplicationName ∨
        Renames s s' id i t a i'.argocdApplicationName) :=
    fun ⟨i, hi, hname⟩ => ⟨i, hi, .inl hname⟩
  cases hc with
  | claimRefused | heartbeatStale | advanceStale | completeStale | deferStale | failStale
  | retryRefused | retryNamed | bootstrapStale | bootstrapKept | finalizeStale | startedStale
  | removeStale | stateKept | deploymentApplied | deploymentMissing | removeAssignmentStale
  | remoteIdsStale | heartbeatExecution | claimMembers | claimCleanup | prepareDeployment
  | storeTemplateRemoteIds | finishDeployment | removeLocalAssignment | storeWorkspaceRemoteIds =>
      exact ⟨i', row', .inl rfl⟩
  | claimExecution | retryReclaimed => exact kept (name_modifyResource row')
  | @advanceExecution c task step m job s₁ owned hmut =>
      obtain ⟨i₁, hi₁, hname⟩ := name_modifyResource row'
      obtain ⟨i, hi, rfl | ⟨htype, hid, ⟨name, missing, rfl, rfl⟩ | ⟨-, rfl⟩ | ⟨-, _, -, rfl⟩⟩⟩ :=
        hmut.instance_cases hi₁
      · exact ⟨_, hi, .inl hname⟩
      · refine ⟨i, hi, .inr ?_⟩
        rw [hname]
        exact .advanced owned (JobExecution.lease_owner.mpr ⟨htype, hid⟩)
          (unowned fun _ => idle_modifyJob fun _ => by simp)
      · exact ⟨i, hi, .inl hname⟩
      · exact ⟨i, hi, .inl hname⟩
  | completeExecution _ hmut =>
      exact kept (hmut.name_released hg.2.names_nothing (name_modifyResource row'))
  | deferExecution _ hmut | failExecution _ hmut =>
      exact kept (hmut.name_released hg.2.names_nothing (name_modifyResource row'))
  | completeDeletion _ hmut =>
      refine kept (hmut.name_released hg.2.names_nothing ⟨i', ?_, rfl⟩)
      unfold deleteResource at row'
      split at row'
      · rename_i type _ _ _
        cases type with
        | «instance» => exact (Table.lookup_erase_some.mp row').2
        | template | templateAssignment | workspace => exact row'
      · exact row'
  | bootstrapDrawn | recordInstanceState => exact kept (name_modify row' fun _ => rfl)
  | storeStartedApplication owned row =>
      obtain ⟨htype, hid, -⟩ := ownedInstance_eq_some.mp row
      obtain ⟨i, hi, rfl | ⟨rfl, rfl⟩⟩ := instances_modify_cases row'
      · exact ⟨_, hi, .inl rfl⟩
      · exact ⟨i, hi, .inr (.started owned (JobExecution.lease_owner.mpr ⟨htype, hid⟩))⟩
  | finalizeUpdate owned row final =>
      subst final
      obtain ⟨i, hi, hname | ⟨howner, hname⟩⟩ := name_finalised row row'
      · exact ⟨i, hi, .inl hname⟩
      · rw [hname]
        exact ⟨i, hi, .inr (.finalised owned howner (unowned fun _ => idle_modifyJob fun _ => by simp))⟩
  | @finalizeAgain c memberIds name job id' i₀ s₁ owned row final =>
      obtain ⟨i₁, hi₁, hstaged⟩ := stageInstance_cases (s := s₁) row' rfl
      have hsame : i'.argocdApplicationName = i₁.argocdApplicationName := by
        rcases hstaged with rfl | ⟨-, rfl⟩ <;> rfl
      subst final
      obtain ⟨i, hi, hname | ⟨howner, hname⟩⟩ := name_finalised row hi₁
      · exact ⟨i, hi, .inl (hsame.trans hname)⟩
      · rw [hsame, hname]
        refine ⟨i, hi, .inr (.finalised owned howner (unowned fun job' hjob => ?_))⟩
        rcases Table.lookup_insert_cases hjob with ⟨-, rfl⟩ | ⟨-, hjob⟩
        · simp
        · exact idle_modifyJob (fun _ => by simp) hjob
  | removeLocalConfiguration => exact ⟨i', (Table.lookup_erase_some.mp row').2, .inl rfl⟩

end Renaming

/-- The attempts of a run that ask Argo CD for something go by their own reads. -/
def Addressed (t : Trace) : Prop :=
  ∀ v worker event rest c, ⟨v, .called worker event⟩ :: rest <:+ t →
    Holds (workerHistory worker rest) c → asksArgoCd c.step →
    applicationRule (workerHistory worker rest) c event.op

theorem run_addressed (steps : List Step) : Addressed (run steps).trace :=
  fun _ _ _ _ _ hs held hstep => run_addresses steps hs rfl held hstep

section Reads
variable {w w' : World} {t : Trace} {what : WhatHappened} {worker : Nat} {c : ExecutionClaim}
  {id : UUID} {slug : String} {attachedName : Option String}

theorem Run.reported_name (h : Run w t) {members : List (String × MemberRole)}
    {helmValues : InstanceHelmValues} {result : ArgoCdReconcileResult}
    (called : Called (workerHistory worker t)
      (.reconcileInstanceApplication id slug attachedName members helmValues) result) :
    ∃ applicationPrefix, result.applicationName = applicationName applicationPrefix slug attachedName := by
  obtain ⟨v, hv⟩ := mem_history.mp called
  obtain ⟨later, rest, ht⟩ := List.append_of_mem hv
  obtain ⟨-, ⟨v', hm⟩, -⟩ := h.entry (ht ▸ List.suffix_append later _)
  cases hm with
  | called _ _ performed =>
      cases performed with
      | requested sent => exact Call.reconcile_named sent

theorem applicationName_of_made (applicationPrefix p slug : String) :
    applicationName applicationPrefix slug (some (p ++ "-" ++ slug)) = p ++ "-" ++ slug := by
  have hne := applicationName_ne_empty p slug none
  unfold applicationName at hne ⊢
  exact if_neg hne

theorem Run.unstored (h : Run w t) (held : Holds (workerHistory worker t) c)
    (other : c.step ≠ .instanceDeleteStep01) :
    ∀ e ∈ workerHistory worker t, storesStarted e.op = false := by
  intro e he
  by_contra hstores
  have hne : e ≠ claimEvent c := by
    rintro rfl
    exact hstores rfl
  obtain ⟨v, rest, hs, hheld⟩ := held.before he hne
  obtain ⟨-, ⟨v', hm⟩, -⟩ := h.entry hs
  cases hm with
  | @called _ β o answer _ allowed =>
      cases o with
      | transaction tr =>
          cases tr with
          | storeStartedApplication c' restored =>
              obtain ⟨hheld', hstep⟩ := allowed
              exact other (hheld.unique hheld' ▸ hstep)
          | _ => exact hstores rfl
      | query q => exact hstores rfl
      | call k => exact hstores rfl

/-- What attempts have read of the names of their Applications. -/
structure NamesInOrder (s : Store) (t : Trace) : Prop where
  /-- A name is made from the slug of its instance. -/
  made : ∀ id i name, s.instances.lookup id = some i → i.argocdApplicationName = some name →
    ∃ p, name = p ++ "-" ++ i.slug
  /-- What was read of an instance is still so, except that it may have got its name. -/
  read : ∀ worker c id slug attachedName, ReadsName (workerHistory worker t) c slug attachedName →
    c.resourceId = some id → id < s.nextId ∧ ∀ i, s.instances.lookup id = some i →
      i.slug = slug ∧ (attachedName = none ∨ i.argocdApplicationName = attachedName)
  /-- And while the attempt attends, the name changes by its own doing. -/
  current : ∀ worker c id slug attachedName, Holds (workerHistory worker t) c →
    s.Attends c id → ReadsName (workerHistory worker t) c slug attachedName →
    (∀ e ∈ workerHistory worker t, storesStarted e.op = false) →
    ∀ i, s.instances.lookup id = some i → i.argocdApplicationName = attachedName
  cleanup : ∀ worker c id claimed, Holds (workerHistory worker t) c → s.Attends c id →
    Wrote (workerHistory worker t) (.claimCleanup c) claimed →
    ∀ i, s.instances.lookup id = some i → i.argocdApplicationName = some claimed.applicationName

/-- The owner of a job of the instance attends to it. -/
theorem Run.owner_attends (h : Run w t) (held : Holds (workerHistory worker t) c)
    {job : JobExecution} (owned : w.store.ownedExecution c = some job)
    (howner : job.lease.owner = some (.instance, some id)) : w.store.Attends c id := by
  obtain ⟨htype, hid⟩ := JobExecution.lease_owner.mp howner
  obtain ⟨hctype, hcid⟩ := h.owned_resource held owned htype
  exact h.attends held hctype (hcid.trans hid) (by simp [owned])

theorem Renames.attends {s' : Store} {i : Instance} {β : Type} {tr : Transaction β} {a : β}
    {new : Option String} (hr : Renames w.store s' id i tr a new) (h : Run w t)
    (hg : Discipline.transaction (workerHistory worker t) tr) :
    ∃ c, Holds (workerHistory worker t) c ∧ w.store.Attends c id ∧
      (s'.ownedExecution c = none ∨
        ∃ restored, c.step = .instanceDeleteStep01 ∧
          (⟨.transaction tr, .ok a⟩ : WorkerEvent) =
            ⟨.transaction (.storeStartedApplication c restored), .ok true⟩) := by
  cases hr with
  | advanced owned howner ended => exact ⟨_, hg.1, h.owner_attends hg.1 owned howner, .inl ended⟩
  | @started c restored job owned howner =>
      exact ⟨c, hg.1, h.owner_attends hg.1 owned howner, .inr ⟨restored, hg.2, rfl⟩⟩
  | finalised owned howner ended => exact ⟨_, hg.1, h.owner_attends hg.1 owned howner, .inl ended⟩

theorem NamesInOrder.reported (ih : NamesInOrder w.store t) (h : Run w t)
    (held : Holds (workerHistory worker t) c) (attends : w.store.Attends c id)
    (unstored : ∀ e ∈ workerHistory worker t, storesStarted e.op = false) {name : String}
    (reports : ReportsName (workerHistory worker t) c name) {i : Instance}
    (row : w.store.instances.lookup id = some i) :
    i.argocdApplicationName = some name ∨
      (i.argocdApplicationName = none ∧ ∃ p, name = p ++ "-" ++ i.slug) := by
  obtain ⟨id', slug, attachedName, members, helmValues, reads, called⟩ := reports
  obtain ⟨p, hname⟩ := h.reported_name called
  have hcurrent := ih.current worker c id slug attachedName held attends reads unstored i row
  obtain ⟨rfl, -⟩ := (ih.read worker c id slug attachedName reads attends.resource).2 i row
  cases attachedName with
  | none => exact .inr ⟨hcurrent, p, hname⟩
  | some attached =>
      obtain ⟨q, rfl⟩ := ih.made id i attached row hcurrent
      rw [applicationName_of_made] at hname
      exact .inl (hcurrent.trans (congrArg some hname.symm))

theorem NamesInOrder.renamed (ih : NamesInOrder w.store t) (h : Run w t)
    (addressed : Addressed (⟨w, what⟩ :: t)) {β : Type} {tr : Transaction β} {a : β}
    (hwhat : what = .called worker ⟨.transaction tr, .ok a⟩)
    (hg : Discipline.transaction (workerHistory worker t) tr) {i : Instance}
    (row : w.store.instances.lookup id = some i) {s' : Store} {new : Option String}
    (hr : Renames w.store s' id i tr a new) :
    new = i.argocdApplicationName ∨
      (i.argocdApplicationName = none ∧ ∃ p, new = some (p ++ "-" ++ i.slug)) := by
  subst hwhat
  have reported : ∀ {c : ExecutionClaim} {name : String}, Holds (workerHistory worker t) c →
      w.store.Attends c id → (∀ e ∈ workerHistory worker t, storesStarted e.op = false) →
      ReportsName (workerHistory worker t) c name →
      some name = i.argocdApplicationName ∨
        (i.argocdApplicationName = none ∧ ∃ p, some name = some (p ++ "-" ++ i.slug)) := by
    intro c name held hattends unstored reports
    rcases ih.reported h held hattends unstored reports row with hname | ⟨hnone, p, rfl⟩
    · exact .inl hname.symm
    · exact .inr ⟨hnone, p, rfl⟩
  cases hr with
  | @advanced c _ _ name _ _ owned howner =>
      obtain ⟨held, -, hadv⟩ := hg
      have hstep : asksArgoCd c.step ∧ c.step ≠ .instanceDeleteStep01 := by
        unfold asksArgoCd
        cases hadv with
        | createInstance step | updateInstance step | startInstance step =>
            rw [step]
            decide
      exact reported held (h.owner_attends held owned howner) (h.unstored held hstep.2)
        (addressed _ _ _ _ _ List.suffix_rfl held hstep.1)
  | @started c restored _ owned howner =>
      obtain ⟨held, hstep⟩ := hg
      have hattends := h.owner_attends held owned howner
      have hasks : asksArgoCd c.step := by
        unfold asksArgoCd
        rw [hstep]
        decide
      obtain ⟨unstored, ⟨slug, reads⟩ | ⟨name, rfl, reports⟩⟩ :=
        addressed _ _ _ _ _ List.suffix_rfl held hasks
      · refine .inl ?_
        rw [← ih.current worker c id slug restored held hattends reads unstored i row]
        cases i.argocdApplicationName <;> rfl
      · exact reported held hattends unstored reports
  | finalised owned howner =>
      obtain ⟨held, -, claimed, hwrote, -, rfl⟩ := hg
      exact .inl (ih.cleanup worker _ id claimed held (h.owner_attends held owned howner) hwrote i row).symm

theorem NamesInOrder.moved (ih : NamesInOrder w.store t) (h : Run w t) (hm : Moved w t what w')
    (addressed : Addressed (⟨w, what⟩ :: t)) {i' : Instance}
    (row' : w'.store.instances.lookup id = some i') :
    (id = w.store.nextId ∧ i'.argocdApplicationName = none) ∨
    ∃ i, w.store.instances.lookup id = some i ∧ i'.slug = i.slug ∧
      (i'.argocdApplicationName = i.argocdApplicationName ∨
        (i.argocdApplicationName = none ∧ ∃ p, i'.argocdApplicationName = some (p ++ "-" ++ i.slug))) := by
  rcases hm.store_cases with heq | ⟨now, heq⟩ | ⟨r, -, hr⟩ | ⟨worker, β, tr, a, hwhat, hg, hc⟩
  · exact .inr ⟨i', heq ▸ row', rfl, .inl rfl⟩
  · exact .inr ⟨i', by simpa [heq] using row', rfl, .inl rfl⟩
  · rcases hr.instance_cases row' with ⟨_, _, -, rfl, rfl⟩ | ⟨i, row, rfl | ⟨l, rfl, -⟩⟩
    · exact .inl ⟨rfl, rfl⟩
    · exact .inr ⟨_, row, rfl, .inl rfl⟩
    · exact .inr ⟨i, row, rfl, .inl rfl⟩
  · obtain ⟨i, row, hname⟩ := hc.renamed hg row'
    obtain ⟨i₀, row₀, hslug⟩ := (Narrowed.committed hc).instances id i' row'
    obtain rfl := Option.some.inj (row.symm.trans row₀)
    refine .inr ⟨i, row, hslug, ?_⟩
    rcases hname with hname | hrenames
    · exact .inl hname
    · exact ih.renamed h addressed hwhat hg row hrenames

/-- While an attempt attends to an instance, nobody else names its Application. -/
theorem Run.name_held (h : Run w t) (hm : Moved w t what w')
    (held : Holds (workerHistory worker t) c) (attends : w.store.Attends c id)
    (attends' : w'.store.Attends c id)
    (unstored : c.step ≠ .instanceDeleteStep01 ∨
      ∀ e ∈ workerHistory worker (⟨w, what⟩ :: t), storesStarted e.op = false) {i' : Instance}
    (row' : w'.store.instances.lookup id = some i') :
    ∃ i, w.store.instances.lookup id = some i ∧
      i'.argocdApplicationName = i.argocdApplicationName := by
  rcases hm.store_cases with heq | ⟨now, heq⟩ | ⟨r, -, hr⟩ | ⟨worker', β, tr, a, rfl, hg, hc⟩
  · exact ⟨i', heq ▸ row', rfl⟩
  · exact ⟨i', by simpa [heq] using row', rfl⟩
  · rcases hr.instance_cases row' with ⟨_, _, -, rfl, rfl⟩ | ⟨i, row, rfl | ⟨l, rfl, -⟩⟩
    · obtain ⟨i, row, -⟩ := attends.row
      exact absurd (h.sound.grounded.instances _ i row) (Nat.lt_irrefl _)
    · exact ⟨_, row, rfl⟩
    · exact ⟨i, row, rfl⟩
  · obtain ⟨i, row, hname | hrenames⟩ := hc.renamed hg row'
    · exact ⟨i, row, hname⟩
    · obtain ⟨c', held', hattends', hlost⟩ := hrenames.attends h hg
      obtain ⟨rfl, rfl⟩ := h.attends_unique held held' attends hattends'
      rcases hlost with ended | ⟨restored, hstep, hevent⟩
      · have howned := attends'.owned
        rw [ended] at howned
        cases howned
      · rcases unstored with hother | hnone
        · exact absurd hstep hother
        · have hmem : (⟨.transaction tr, .ok a⟩ : WorkerEvent) ∈
              workerHistory worker (⟨w, .called worker ⟨.transaction tr, .ok a⟩⟩ :: t) :=
            mem_workerHistory_cons.mpr (.inl rfl)
          have hquiet := hnone _ hmem
          rw [hevent] at hquiet
          cases hquiet

theorem readsName_cons (hr : ReadsName (workerHistory worker (⟨w, what⟩ :: t)) c slug attachedName) :
    ReadsName (workerHistory worker t) c slug attachedName ∨
    (∃ missing snapshot, what = .called worker
        ⟨.query (.instanceSnapshot c.resourceId missing), .ok snapshot⟩ ∧ snapshot.slug = slug ∧
        snapshot.attachedName = attachedName) ∨
    ∃ claimed, what = .called worker ⟨.transaction (.claimMembers c), .ok claimed⟩ ∧
      claimed.slug = slug ∧ claimed.attachedName = attachedName := by
  rcases hr with ⟨missing, snapshot, hread, hslug, hname⟩ | ⟨claimed, hwrote, hslug, hname⟩
  · rcases mem_workerHistory_cons.mp hread with hwhat | hold
    · exact .inr (.inl ⟨missing, snapshot, hwhat, hslug, hname⟩)
    · exact .inl (.inl ⟨missing, snapshot, hold, hslug, hname⟩)
  · rcases mem_workerHistory_cons.mp hwrote with hwhat | hold
    · exact .inr (.inr ⟨claimed, hwhat, hslug, hname⟩)
    · exact .inl (.inr ⟨claimed, hold, hslug, hname⟩)

def ClaimsNamed (s s' : Store) : {β : Type} → Transaction β → β → Prop
  | _, .claimMembers c, claimed => ∃ id i, c.resourceId = some id ∧
      s.instances.lookup id = some i ∧ s'.instances = s.instances ∧ claimed.slug = i.slug ∧
      claimed.attachedName = i.argocdApplicationName
  | _, .claimCleanup c, claimed => ∃ id i, c.resourceId = some id ∧
      s.instances.lookup id = some i ∧ s'.instances = s.instances ∧
      i.argocdApplicationName = some claimed.applicationName
  | _, _, _ => True

theorem Committed.claims_named {s s' : Store} {β : Type} {tr : Transaction β} {a : β}
    (hc : Committed s tr a s') : ClaimsNamed s s' tr a := by
  cases hc with
  | claimMembers resource row => exact ⟨_, _, resource, row, rfl, rfl, rfl⟩
  | claimCleanup resource row named => exact ⟨_, _, resource, row, rfl, named⟩
  | _ => trivial

theorem Moved.name_read (h : Run w t) (hm : Moved w t what w')
    (hr : ReadsName (workerHistory worker (⟨w, what⟩ :: t)) c slug attachedName)
    (resource : c.resourceId = some id) :
    ReadsName (workerHistory worker t) c slug attachedName ∨
    (id < w'.store.nextId ∧ ∀ i', w'.store.instances.lookup id = some i' → i'.slug = slug ∧
      i'.argocdApplicationName = attachedName) := by
  rcases readsName_cons hr with hold | ⟨missing, snapshot, rfl, rfl, rfl⟩ | ⟨claimed, rfl, rfl, rfl⟩
  · exact .inl hold
  · obtain ⟨hanswer, rfl⟩ := hm.read
    simp only [Store.answer, Store.instanceSnapshot, bind_eq_ok, pure_eq_ok, found_eq_ok] at hanswer
    obtain ⟨⟨id', i⟩, hrow, rfl⟩ := hanswer
    obtain ⟨hid, hi⟩ := Store.claimedInstance_eq_some.mp hrow
    obtain rfl := Option.some.inj (hid.symm.trans resource)
    refine .inr ⟨h.sound.grounded.instances _ i hi, fun i' hi' => ?_⟩
    obtain rfl := Option.some.inj (hi.symm.trans hi')
    exact ⟨rfl, rfl⟩
  · obtain ⟨id', i, hid, hi, hsame, hslug, hname⟩ := hm.wrote.2.claims_named
    obtain rfl := Option.some.inj (hid.symm.trans resource)
    refine .inr ⟨Nat.lt_of_lt_of_le (h.sound.grounded.instances _ i hi) (hm.nextId_le h.sound),
      fun i' hi' => ?_⟩
    obtain rfl := Option.some.inj (hi.symm.trans (hsame ▸ hi'))
    exact ⟨hslug.symm, hname.symm⟩

theorem NamesInOrder.move (ih : NamesInOrder w.store t) (h : Run w t) (hm : Moved w t what w')
    (addressed : Addressed (⟨w, what⟩ :: t)) : NamesInOrder w'.store (⟨w, what⟩ :: t) where
  made := by
    intro id i' name row' hname
    rcases ih.moved h hm addressed row' with ⟨-, hnone⟩ | ⟨i, row, hslug, hsame | ⟨-, p, hnew⟩⟩
    · cases hnone.symm.trans hname
    · rw [hslug]
      exact ih.made id i name row (hsame.symm.trans hname)
    · rw [hslug]
      exact ⟨p, Option.some.inj (hname.symm.trans hnew)⟩
  read := by
    intro worker c id slug attachedName reads resource
    rcases hm.name_read h reads resource with hold | ⟨hlt, hrow⟩
    · obtain ⟨hlt, hrow⟩ := ih.read worker c id slug attachedName hold resource
      refine ⟨Nat.lt_of_lt_of_le hlt (hm.nextId_le h.sound), fun i' row' => ?_⟩
      rcases ih.moved h hm addressed row' with ⟨rfl, -⟩ | ⟨i, row, hslug, hmoved⟩
      · exact absurd hlt (Nat.lt_irrefl _)
      · obtain ⟨hsame, hname⟩ := hrow i row
        refine ⟨hslug.trans hsame, ?_⟩
        rcases hmoved with hkept | ⟨hnone, -⟩
        · rw [hkept]
          exact hname
        · exact .inl (hname.elim (fun h => h) fun hname => hname.symm.trans hnone)
    · exact ⟨hlt, fun i' row' => ⟨(hrow i' row').1, .inr (hrow i' row').2⟩⟩
  current := by
    intro worker c id slug attachedName held attends reads unstored i' row'
    rcases hm.name_read h reads attends.resource with hold | ⟨-, hrow⟩
    · have hevent : ∃ event, event ∈ workerHistory worker t := by
        rcases hold with ⟨_, _, hread, -⟩ | ⟨_, hwrote, -⟩
        · exact ⟨_, hread⟩
        · exact ⟨_, hwrote⟩
      obtain ⟨event, hmem⟩ := hevent
      obtain ⟨hheld, hattends⟩ := hm.attended_before h held attends hmem
      obtain ⟨i, row, hsame⟩ := h.name_held hm hheld hattends attends (.inr unstored) row'
      exact hsame.trans (ih.current worker c id slug attachedName hheld hattends hold
        (fun e he => unstored e (mem_workerHistory_cons.mpr (.inr he))) i row)
    · exact (hrow i' row').2
  cleanup := by
    intro worker c id claimed held attends hwrote i' row'
    rcases mem_workerHistory_cons.mp hwrote with rfl | hold
    · obtain ⟨id', i, hid, hi, hsame, hname⟩ := hm.wrote.2.claims_named
      obtain rfl := Option.some.inj (hid.symm.trans attends.resource)
      obtain rfl := Option.some.inj (hi.symm.trans (hsame ▸ row'))
      exact hname
    · obtain ⟨hheld, hattends⟩ := hm.attended_before h held attends hold
      have hcleans : c.step ≠ .instanceDeleteStep01 := by
        obtain ⟨v, rest, hs, -⟩ := hheld.before hold (ne_claimEvent rfl c)
        obtain ⟨-, ⟨v', hm'⟩, -⟩ := h.entry hs
        rw [hm'.wrote.1.2]
        decide
      obtain ⟨i, row, hsame⟩ := h.name_held hm hheld hattends attends (.inl hcleans) row'
      exact hsame.trans (ih.cleanup worker c id claimed hheld hattends hold i row)

theorem Run.namesInOrder (h : Run w t) (addressed : Addressed t) : NamesInOrder w.store t := by
  refine h.induction (motive := fun w t => Addressed t → NamesInOrder w.store t) ?start ?move addressed
  case start =>
    intro _
    refine ⟨fun id i name row => ?_, fun worker c id slug attachedName reads => ?_,
      fun worker c _ _ _ held => ?_, fun worker c _ _ held => ?_⟩
    · cases row
    · rcases reads with ⟨_, _, hread, -⟩ | ⟨_, hwrote, -⟩
      · cases hread
      · cases hwrote
    · exact absurd held (not_holds_nil c)
    · exact absurd held (not_holds_nil c)
  case move =>
    intro w t what w' hrun hm ih addressed
    have hold : Addressed t := fun v worker event rest c hs =>
      addressed v worker event rest c (hs.trans (List.suffix_cons _ _))
    exact (ih hold).move hrun hm addressed

theorem Run.name_kept (h : Run w t) (addressed : Addressed t) {v : World} {rest : Trace}
    (hs : ⟨v, what⟩ :: rest <:+ t) {i i' : Instance}
    (row : v.store.instances.lookup id = some i) (row' : w.store.instances.lookup id = some i') :
    i'.slug = i.slug ∧ (i.argocdApplicationName = none ∨
      i'.argocdApplicationName = i.argocdApplicationName) := by
  refine h.induction (motive := fun w t => Addressed t → ⟨v, what⟩ :: rest <:+ t → ∀ i',
    w.store.instances.lookup id = some i' → i'.slug = i.slug ∧ (i.argocdApplicationName = none ∨
      i'.argocdApplicationName = i.argocdApplicationName)) ?start ?move addressed hs i' row'
  case start =>
    intro _ hs
    cases List.suffix_nil.mp hs
  case move =>
    intro w t what' w' hrun hm ih addressed hs i' row'
    have hold : Addressed t := fun v worker event rest c hs =>
      addressed v worker event rest c (hs.trans (List.suffix_cons _ _))
    have hknown : id < w.store.nextId ∧ ∀ i₁, w.store.instances.lookup id = some i₁ →
        i₁.slug = i.slug ∧ (i.argocdApplicationName = none ∨
          i₁.argocdApplicationName = i.argocdApplicationName) := by
      rcases List.suffix_cons_iff.mp hs with heq | hrest
      · obtain ⟨hentry, -⟩ := List.cons.inj heq
        obtain rfl := (Entry.mk.inj hentry).1
        refine ⟨hrun.sound.grounded.instances id i row, fun i₁ row₁ => ?_⟩
        obtain rfl := Option.some.inj (row.symm.trans row₁)
        exact ⟨rfl, .inr rfl⟩
      · obtain ⟨hv, -, hsteps⟩ := hrun.entry hrest
        exact ⟨hsteps.used_mono (hv.sound.grounded.instances id i row), ih hold hrest⟩
    rcases (hrun.namesInOrder hold).moved hrun hm addressed row' with ⟨rfl, -⟩ | ⟨i₁, row₁, hslug, hmoved⟩
    · exact absurd hknown.1 (Nat.lt_irrefl _)
    · obtain ⟨hsame, hname⟩ := hknown.2 i₁ row₁
      refine ⟨hslug.trans hsame, ?_⟩
      rcases hname with hname | hname
      · exact .inl hname
      · rcases hmoved with hkept | ⟨hnone, -⟩
        · exact .inr (hkept.trans hname)
        · exact .inl (hname.symm.trans hnone)

/-- What the observer has read of an instance is still so, except that it may have got its
name. -/
theorem Run.observed_kept (h : Run w t) (addressed : Addressed t) {i : Instance}
    (observes : ObservesName (workerHistory worker t) id slug attachedName)
    (row : w.store.instances.lookup id = some i) :
    i.slug = slug ∧ (attachedName = none ∨ i.argocdApplicationName = attachedName) := by
  obtain ⟨snapshots, hread, snapshot, hmem, rfl, rfl, rfl⟩ := observes
  obtain ⟨v, hv⟩ := mem_history.mp hread
  obtain ⟨later, rest, ht⟩ := List.append_of_mem hv
  have hs : ⟨v, .called worker ⟨.query .observedInstances, .ok snapshots⟩⟩ :: rest <:+ t :=
    ht ▸ List.suffix_append later _
  obtain ⟨-, ⟨v', hm⟩, -⟩ := h.entry hs
  obtain rfl : v.store.observedInstances = snapshots := Except.ok.inj hm.read.1
  simp only [Store.observedInstances, List.mem_map, List.mem_insertionSort] at hmem
  obtain ⟨⟨id, i₀⟩, hselected, rfl⟩ := hmem
  exact h.name_kept addressed hs (Table.mem_select.mp hselected).1 row

/-- While the attempt went on, the database answered the query like this. -/
def AnsweredDuring (t : Trace) (worker : Nat) (c : ExecutionClaim) {β : Type} (q : Query β) (a : β) :
    Prop :=
  ∃ v rest, ⟨v, .called worker ⟨.query q, .ok a⟩⟩ :: rest <:+ t ∧
    Holds (workerHistory worker rest) c ∧ v.store.answer q = .ok a

theorem Run.answered_during (h : Run w t) (held : Holds (workerHistory worker t) c) {β : Type}
    {q : Query β} {a : β} (read : Read (workerHistory worker t) q a) :
    AnsweredDuring t worker c q a := by
  obtain ⟨v, rest, hs, hheld⟩ := held.before read query_ne_transaction
  obtain ⟨-, ⟨v', hm⟩, -⟩ := h.entry hs
  exact ⟨v, rest, hs, hheld, hm.read.1⟩

end Reads

/-- Every slug was drawn by the generator, and none twice. -/
structure Store.SlugsInOrder (s : Store) : Prop where
  drawn : ∀ id i, s.instances.lookup id = some i → i.slug.length = instanceSlugLength
  apart : ∀ id id' i i', s.instances.lookup id = some i → s.instances.lookup id' = some i' →
    i.slug = i'.slug → id = id'

theorem Store.SlugsInOrder.of_within {s s' : Store} (hs : s.SlugsInOrder)
    (within : Table.Within (fun i => i.slug) s.instances s'.instances) : s'.SlugsInOrder where
  drawn := by
    intro id i row
    obtain ⟨i₀, row₀, hsame⟩ := within id i row
    exact (congrArg String.length hsame).trans (hs.drawn id i₀ row₀)
  apart := by
    intro id id' i i' row row' hslug
    obtain ⟨i₀, row₀, hsame⟩ := within id i row
    obtain ⟨i₀', row₀', hsame'⟩ := within id' i' row'
    exact hs.apart id id' i₀ i₀' row₀ row₀' ((hsame.symm.trans hslug).trans hsame')

theorem Accepted.slugsInOrder {s s' : Store} {r : Request} (h : Accepted s r s')
    (hs : s.SlugsInOrder) : s'.SlugsInOrder := by
  by_cases creates : ∃ application slug, r = .createInstance application slug
  · obtain ⟨application, slug, rfl⟩ := creates
    cases h with
    | createInstance _ free =>
        constructor
        · intro id i row
          rcases Table.lookup_insert_cases row with ⟨rfl, rfl⟩ | ⟨-, row⟩
          · exact slug.length_eq
          · exact hs.drawn id i row
        · intro id id' i i' row row' hslug
          rcases Table.lookup_insert_cases row with ⟨rfl, rfl⟩ | ⟨-, row⟩ <;>
            rcases Table.lookup_insert_cases row' with ⟨rfl, rfl⟩ | ⟨-, row'⟩
          · rfl
          · exact absurd hslug.symm (free id' i' row')
          · exact absurd hslug (free id i row)
          · exact hs.apart id id' i i' row row' hslug
  · refine hs.of_within fun id i' row' => ?_
    rcases h.instance_cases row' with ⟨application, slug, rfl, -⟩ | ⟨i, row, rfl | ⟨l, rfl, -⟩⟩
    · exact absurd ⟨application, slug, rfl⟩ creates
    · exact ⟨_, row, rfl⟩
    · exact ⟨i, row, rfl⟩

theorem Run.slugsInOrder {w : World} {t : Trace} (h : Run w t) : w.store.SlugsInOrder := by
  refine h.induction (motive := fun w _ => w.store.SlugsInOrder) ?start ?move
  case start =>
    refine ⟨fun id i row => ?_, fun id id' i i' row => ?_⟩
    · cases row
    · cases row
  case move =>
    intro w t what w' hrun hm ih
    rcases hm.store_cases with heq | ⟨now, heq⟩ | ⟨r, -, accepted⟩ | ⟨worker, β, tr, a, -, -, committed⟩
    · exact heq ▸ ih
    · rw [heq]
      exact ⟨ih.drawn, ih.apart⟩
    · exact accepted.slugsInOrder ih
    · exact ih.of_within (Narrowed.committed committed).instances

def Op.application : {β : Type} → Op β → Option (UUID × String × Option String)
  | _, .call (.reconcileInstanceApplication id slug attachedName _ _)
  | _, .call (.deleteInstanceApplication id slug attachedName)
  | _, .call (.instanceApplicationExists id slug attachedName) => some (id, slug, attachedName)
  | _, _ => none

def Op.looks : {β : Type} → Op β → Bool
  | _, .call (.instanceApplicationExists _ _ _) => true
  | _, _ => false

def Op.helmValues : {β : Type} → Op β → Option InstanceHelmValues
  | _, .call (.reconcileInstanceApplication _ _ _ _ values) => some values
  | _, _ => none

/-- The names of the Applications in a run. -/
structure ApplicationsNamed (w : World) (t : Trace) : Prop where
  made : ∀ id i name, w.store.instances.lookup id = some i → i.argocdApplicationName = some name →
    ∃ p, name = p ++ "-" ++ i.slug
  apart : ∀ id id' i i' name, w.store.instances.lookup id = some i →
    w.store.instances.lookup id' = some i' → i.argocdApplicationName = some name →
    i'.argocdApplicationName = some name → id = id'
  kept : ∀ v what rest, ⟨v, what⟩ :: rest <:+ t → ∀ id i i' name,
    v.store.instances.lookup id = some i → w.store.instances.lookup id = some i' →
    i.argocdApplicationName = some name → i'.argocdApplicationName = some name ∧ i'.slug = i.slug
  /-- Argo CD is asked by an attempt about its own instance, or by the observer, who looks
  at the instances it has read. A late attempt, too, asks about the Application its instance
  has, or is about to get. -/
  asked : ∀ v worker event rest id slug attachedName, ⟨v, .called worker event⟩ :: rest <:+ t →
    event.op.application = some (id, slug, attachedName) →
    ((∃ c, Holds (workerHistory worker rest) c ∧ asksArgoCd c.step ∧ c.resourceId = some id) ∨
      (event.op.looks = true ∧ ObservesName (workerHistory worker rest) id slug attachedName)) ∧
    ∀ i, w.store.instances.lookup id = some i →
      i.slug = slug ∧ (attachedName = none ∨ i.argocdApplicationName = attachedName)
  /-- Helm values come from an attempt, for its own instance, as the database had them. -/
  given : ∀ v worker event rest values, ⟨v, .called worker event⟩ :: rest <:+ t →
    event.op.helmValues = some values → ∃ c attachedName,
      Holds (workerHistory worker rest) c ∧ c.resourceId = some values.publicUrl ∧
      event.op.application = some (values.publicUrl, values.slug, attachedName) ∧
      values.target.schemaName = schemaOf values.publicUrl ∧
      AnsweredDuring rest worker c (.managedDatabaseTarget values.publicUrl)
        (some (values.target, values.managedDatabaseName)) ∧
      AnsweredDuring rest worker c (.storedKubeconfig values.publicUrl) values.kubeconfig ∧
      ∀ i, w.store.instances.lookup values.publicUrl = some i → i.slug = values.slug

theorem Op.asker {h : WorkerHistory} {β : Type} {o : Op β} {id : UUID} {slug : String}
    {attachedName : Option String} (allowed : Discipline.guard h o)
    (asked : o.application = some (id, slug, attachedName)) :
    (∃ c, Holds h c ∧ asksArgoCd c.step ∧ c.resourceId = some id) ∨
      (o.looks = true ∧ ObservesName h id slug attachedName) := by
  unfold Op.application at asked
  split at asked
  · obtain ⟨-, c, held, resource, hreconciles⟩ := allowed
    cases asked
    exact .inl ⟨c, held, hreconciles.asks, resource⟩
  · obtain ⟨c, held, resource, hstep⟩ := allowed
    cases asked
    refine .inl ⟨c, held, ?_, resource⟩
    unfold asksArgoCd
    rcases hstep with hstep | hstep <;>
      rw [hstep] <;> decide
  · cases asked
    rcases allowed with ⟨c, held, resource, hstep⟩ | hobserves
    · refine .inl ⟨c, held, ?_, resource⟩
      unfold asksArgoCd
      rcases hstep with hstep | hstep <;>
        rw [hstep] <;> decide
    · exact .inr ⟨rfl, hobserves⟩
  · cases asked

theorem Op.application_eq_some {h : WorkerHistory} {c : ExecutionClaim} {β : Type} {o : Op β}
    {id : UUID} {slug : String} {attachedName : Option String} (rule : applicationRule h c o)
    (asked : o.application = some (id, slug, attachedName)) :
    c.resourceId = some id ∧ ReadsName h c slug attachedName := by
  unfold Op.application at asked
  split at asked
  · obtain ⟨resource, reads, -⟩ := rule
    cases asked
    exact ⟨resource, reads⟩
  · cases asked
    exact rule
  · cases asked
    exact rule
  · cases asked

theorem Op.helmValues_eq_some {h : WorkerHistory} {c : ExecutionClaim} {β : Type} {o : Op β}
    {values : InstanceHelmValues} (rule : applicationRule h c o) (given : o.helmValues = some values) :
    c.resourceId = some values.publicUrl ∧ ∃ attachedName, ReadsName h c values.slug attachedName ∧
      o.application = some (values.publicUrl, values.slug, attachedName) ∧
      ReadsValues h values.publicUrl values.slug values := by
  unfold Op.helmValues at given
  split at given
  · obtain ⟨resource, reads, hvalues⟩ := rule
    cases given
    obtain rfl := hvalues.publicUrl
    obtain rfl := hvalues.slug
    exact ⟨resource, _, reads, rfl, hvalues⟩
  · cases given

theorem Op.giver {h : WorkerHistory} {β : Type} {o : Op β} {values : InstanceHelmValues}
    (allowed : Discipline.guard h o) (given : o.helmValues = some values) :
    ∃ c, Holds h c ∧ asksArgoCd c.step := by
  unfold Op.helmValues at given
  split at given
  · obtain ⟨-, c, held, -, hreconciles⟩ := allowed
    exact ⟨c, held, hreconciles.asks⟩
  · cases given

/-- Two names made from slugs of one length are made from the same slug. -/
theorem slug_of_name {p p' slug slug' : String} (h : p ++ "-" ++ slug = p' ++ "-" ++ slug')
    (hlen : slug.length = slug'.length) : slug = slug' := by
  have hlist := congrArg String.toList h
  simp only [String.toList_append] at hlist
  rw [← String.length_toList, ← String.length_toList] at hlen
  exact String.toList_injective (List.append_inj_right' hlist hlen)

theorem applications_are_named_once (steps : List Step) :
    ApplicationsNamed (run steps).world (run steps).trace := by
  have hrun := run_reaches steps
  have haddressed := run_addressed steps
  have hnames := hrun.namesInOrder haddressed
  refine ⟨hnames.made, ?apart, ?kept, ?asked, ?given⟩
  case apart =>
    intro id id' i i' name row row' named named'
    obtain ⟨p, rfl⟩ := hnames.made id i name row named
    obtain ⟨p', hsame⟩ := hnames.made id' i' _ row' named'
    have hslugs := hrun.slugsInOrder
    have hlen := (hslugs.drawn id i row).trans (hslugs.drawn id' i' row').symm
    exact hslugs.apart id id' i i' row row' (slug_of_name hsame hlen)
  case kept =>
    intro v what rest hs id i i' name row row' named
    obtain ⟨hslug, hname⟩ := hrun.name_kept haddressed hs row row'
    rw [named] at hname
    exact ⟨hname.resolve_left (by simp), hslug⟩
  case asked =>
    intro v worker event rest id slug attachedName hs asked
    have hlater : workerHistory worker rest <:+ workerHistory worker (run steps).trace :=
      ((List.suffix_cons _ _).trans hs).filterMap _
    obtain ⟨-, ⟨v', hm⟩, -⟩ := hrun.entry hs
    have hasker : (∃ c, Holds (workerHistory worker rest) c ∧ asksArgoCd c.step ∧
        c.resourceId = some id) ∨
        (event.op.looks = true ∧ ObservesName (workerHistory worker rest) id slug attachedName) := by
      cases hm with
      | called _ allowed => exact Op.asker allowed asked
    refine ⟨hasker, fun i row => ?_⟩
    rcases hasker with ⟨c, held, hstep, -⟩ | ⟨-, snapshots, hread, hsnapshot⟩
    · obtain ⟨resource, reads⟩ :=
        Op.application_eq_some (haddressed v worker event rest c hs held hstep) asked
      exact (hnames.read worker c id slug attachedName (reads.later hlater) resource).2 i row
    · exact hrun.observed_kept haddressed ⟨snapshots, hread.later hlater, hsnapshot⟩ row
  case given =>
    intro v worker event rest values hs given
    have hlater : workerHistory worker rest <:+ workerHistory worker (run steps).trace :=
      ((List.suffix_cons _ _).trans hs).filterMap _
    obtain ⟨hbefore, ⟨v', hm⟩, -⟩ := hrun.entry hs
    obtain ⟨c, held, hstep⟩ : ∃ c, Holds (workerHistory worker rest) c ∧ asksArgoCd c.step := by
      cases hm with
      | called _ allowed => exact Op.giver allowed given
    obtain ⟨resource, attachedName, reads, happlication, hvalues⟩ :=
      Op.helmValues_eq_some (haddressed v worker event rest c hs held hstep) given
    refine ⟨c, attachedName, held, resource, happlication, hbefore.target_read hvalues.target,
      hbefore.answered_during held hvalues.target, hbefore.answered_during held hvalues.kubeconfig,
      fun i row => ?_⟩
    exact ((hnames.read worker c _ _ _ (reads.later hlater) resource).2 i row).1

end CoderManager
