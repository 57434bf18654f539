import CoderManager.Lib.Progress
import CoderManager.Results.StoredSecrets

/-!
# Attempts on instances that go well

An attempt that holds its claim, over an instance whose database, kubeconfig and
password can be read, can carry its step through: some answers of the remote systems
lead it to the commit that moves the instance on.
-/
namespace CoderManager
open Programs Tables Leases

/-- What an attempt reads of its instance besides the row. -/
def Store.Equipped (s : Store) (id : UUID) : Prop :=
  (∃ target, s.managedDatabaseTarget id = .ok (some target)) ∧
    ∃ kubeconfig, s.storedKubeconfig id = .ok kubeconfig

/-- The claim owns the job of the instance. -/
structure InstanceAttempt (c : ExecutionClaim) (id : UUID) (i : Instance) (s : Store) : Prop where
  job : ∃ job, s.jobs.lookup c.jobId = some job ∧ job.claim c.jobId = c ∧ job.status = .running ∧
    job.resourceType = some .instance ∧ job.resourceId = some id ∧
    resourceMatches c.jobId job (some i.toLifecycle) = true
  row : s.instances.lookup id = some i
  equipped : s.Equipped id
  bound : ∀ e, i.passwordEnc = some e ∨ i.passwordCandidateEnc = some e → e.boundTo = id

/-- The tables besides the jobs and the instances that attempts read. -/
structure SameEquipment (s s' : Store) : Prop where
  allocations : s'.allocations = s.allocations
  databases : s'.databases = s.databases
  kubernetesProviders : s'.kubernetesProviders = s.kubernetesProviders

section Operations
variable {w : World} {α β : Type} {ok : α → World → Prop}

theorem canReturn_query {q : Query α} {a : α} (answer : w.store.answer q = .ok a) (next : ok a w) :
    CanReturn manager (query q) w ok := by
  refine .perform .done ?_ next
  change w.perform .done (.query q) = _
  rw [w.perform_reads q (fun e h => by cases h), answer]

theorem canReturn_transact {t : Transaction α} {a : α} {s : Store}
    (commits : ∀ token, w.store.transact token t = .ok (a, s)) (next : ok a ⟨s⟩) :
    CanReturn manager (transact t) w ok := by
  refine .perform .done ?_ next
  change w.perform .done (.transaction t) = _
  exact World.perform_commits commits (fun e h => by cases h)

theorem canReturn_request {c : Call α} {a : α} (reply : Reply)
    (answer : c.answer reply = .ok a) (next : ok a w) :
    CanReturn manager (request c) w ok := by
  refine .perform reply ?_ next
  change (c.answer reply, w) = _
  rw [answer]

end Operations

namespace InstanceAttempt
variable {c : ExecutionClaim} {id : UUID} {i i₁ : Instance} {s s₁ : Store} {m : Mutation}

theorem resource (h : InstanceAttempt c id i s) : c.resourceId = some id := by
  obtain ⟨job, -, hclaim, -, -, hid, -⟩ := h.job
  rw [← hclaim]
  exact hid

theorem requiredResourceId (h : InstanceAttempt c id i s) : c.requiredResourceId = .ok id := by
  rw [ExecutionClaim.requiredResourceId, h.resource]

theorem claimed (h : InstanceAttempt c id i s) : s.claimedInstance c.resourceId = some (id, i) := by
  rw [h.resource]
  simp only [Store.claimedInstance, h.row, bind, Option.bind, pure]

theorem owned (h : InstanceAttempt c id i s) : ∃ job, s.ownedExecution c = some job ∧
    job.resourceType = some .instance ∧ job.resourceId = some id ∧
    s.ownedInstance job = some (id, i) ∧ resourceActions job.name = some i.action := by
  obtain ⟨job, hjob, hclaim, hrunning, htype, hid, hmatch⟩ := h.job
  have hresource : s.resourceForJob job = some i.toLifecycle := by
    simp only [Store.resourceForJob, htype, hid, Store.lifecycle, h.row, Option.map_some]
  have htask : job.taskName = c.taskName := congrArg ExecutionClaim.taskName hclaim
  have hstep : job.step = c.step := congrArg ExecutionClaim.step hclaim
  have hattempt : job.attempt = c.attempt := congrArg ExecutionClaim.attempt hclaim
  refine ⟨job, ?_, htype, hid, ?_, ?_⟩
  · simp only [Store.ownedExecution, hjob, hresource, htask, hstep, hattempt, hrunning, hmatch,
      and_self, if_true]
  · exact Store.ownedInstance_eq_some.mpr ⟨htype, hid, h.row⟩
  · simp only [resourceMatches, htype] at hmatch
    split at hmatch
    · cases hmatch
    · rename_i action haction
      simp only [Bool.and_eq_true, beq_iff_eq] at hmatch
      rw [haction, hmatch.1.2]

theorem kept (h : InstanceAttempt c id i s) (jobs : s₁.jobs = s.jobs)
    (row : s₁.instances.lookup id = some i₁) (same : i₁.toLifecycle = i.toLifecycle)
    (bound : ∀ e, i₁.passwordEnc = some e ∨ i₁.passwordCandidateEnc = some e → e.boundTo = id)
    (equipment : SameEquipment s s₁) : InstanceAttempt c id i₁ s₁ where
  job := by
    rw [jobs, same]
    exact h.job
  row := row
  equipped := by
    obtain ⟨htarget, hkubeconfig⟩ := h.equipped
    unfold Store.Equipped Store.managedDatabaseTarget Store.storedKubeconfig
    rw [equipment.allocations, equipment.databases, equipment.kubernetesProviders]
    exact ⟨htarget, hkubeconfig⟩
  bound := bound

theorem heartbeats (h : InstanceAttempt c id i s) : ∃ s', InstanceAttempt c id i s' ∧ s'.members = s.members ∧
    ∀ token, s.transact token (.heartbeatExecution c) = .ok (true, s') := by
  obtain ⟨job, howned, -⟩ := h.owned
  obtain ⟨job', hjob, hclaim, hrest⟩ := h.job
  refine ⟨s.modifyJob c.jobId fun job => { job with claimedAt := some s.now }, ⟨?_, h.row, h.equipped,
    h.bound⟩, rfl, fun token => ?_⟩
  · refine ⟨{ job' with claimedAt := some s.now }, ?_, hclaim, hrest⟩
    simp only [Store.modifyJob, Table.lookup_modify_self, hjob, Option.map_some]
  · simp only [Store.transact, Store.heartbeatExecution, howned]

/-- A callback leaves an instance row and nothing else. -/
def Applies (m : Mutation) (s : Store) (id : UUID) (i₁ : Instance) : Prop :=
  ∀ job, job.resourceType = some .instance → job.resourceId = some id → ∃ s₁,
    m.apply job s = .ok s₁ ∧ s₁.jobs = s.jobs ∧ s₁.members = s.members ∧
    s₁.instances.lookup id = some i₁

theorem applies_none (h : InstanceAttempt c id i s) : Applies .none s id i :=
  fun _ _ _ => ⟨s, rfl, rfl, rfl, h.row⟩

theorem applies_onInstance (h : InstanceAttempt c id i s) (missing : WorkerError)
    (f : Instance → Except WorkerError Instance) (hf : f i = .ok i₁)
    (hm : ∀ job, m.apply job s = Mutation.onInstance job s missing f) : Applies m s id i₁ := by
  intro job htype hid
  refine ⟨{ s with instances := s.instances.modify id fun _ => i₁ }, ?_, rfl, rfl, ?_⟩
  · rw [hm]
    simp only [Mutation.onInstance, Store.ownedInstance_eq_some.mpr ⟨htype, hid, h.row⟩, found, hf,
      bind, Except.bind, pure, Except.pure]
  · simp only [Table.lookup_modify_self, h.row, Option.map_some]

theorem advances (h : InstanceAttempt c id i s) (applies : Applies m s id i₁) (task : TaskName)
    (step : StepName) : ∃ s', s'.members = s.members ∧
      s'.instances.lookup id = some { i₁ with status := .pending, step := some step } ∧
      ∀ token, s.transact token (.advanceExecution c task step m) = .ok (true, s') := by
  obtain ⟨job, howned, htype, hid, -⟩ := h.owned
  obtain ⟨s₁, happly, -, hmembers, hrow⟩ := applies job htype hid
  refine ⟨(s₁.modifyJob c.jobId fun job => { job with
      taskName := task, step := step, status := .pending, claimedAt := none }).modifyResource job
        fun r => { r with step := some step, status := .pending }, ?_, ?_, fun token => ?_⟩
  · simp only [Store.modifyResource, htype, hid, Store.modifyLifecycle, Store.modifyJob, hmembers]
  · simp only [Store.modifyResource, htype, hid, Store.modifyLifecycle, Store.modifyJob,
      Table.lookup_modify_self, hrow, Option.map_some]
  · simp only [Store.transact, Store.advanceExecution, howned, happly, bind, Except.bind, pure,
      Except.pure]

theorem completes (h : InstanceAttempt c id i s) (applies : Applies m s id i₁) : ∃ s',
    s'.instances.lookup id = some { i₁ with status := .success, step := none } ∧
    ∀ token, s.transact token (.completeExecution c m false) = .ok (true, s') := by
  obtain ⟨job, howned, htype, hid, -⟩ := h.owned
  obtain ⟨s₁, happly, -, -, hrow⟩ := applies job htype hid
  refine ⟨s₁.settleExecution c job, ?_, fun token => ?_⟩
  · simp only [Store.settleExecution, Store.modifyResource, htype, hid, Store.modifyLifecycle,
      Store.modifyJob, Table.lookup_modify_self, hrow, Option.map_some]
  · simp only [Store.transact, Store.completeExecution, howned, happly, bind, Except.bind, pure,
      Except.pure, Bool.false_eq_true, if_false]

theorem removes (h : InstanceAttempt c id i s) : ∃ s', s'.instances.lookup id = none ∧
    ∀ token, s.transact token (.removeLocalConfiguration c) = .ok (true, s') := by
  obtain ⟨job, howned, -, -, hrow, -⟩ := h.owned
  refine ⟨(s.modifyJob c.jobId fun job =>
    { job with status := .success, claimedAt := none }).removeInstance id, ?_, fun token => ?_⟩
  · simp [Store.removeInstance, Table.lookup_erase]
  · simp only [Store.transact, Store.removeLocalConfiguration, howned, hrow]

end InstanceAttempt

def Store.MembersWait (s : Store) (id : UUID) : Prop :=
  ∃ memberId m, s.members.lookup memberId = some m ∧ m.instanceId = id ∧ m.status = .pending

namespace InstanceAttempt
variable {c : ExecutionClaim} {id : UUID} {i : Instance} {s : Store}

theorem writes_members (h : InstanceAttempt c id i s) (members : Table UUID Member) :
    InstanceAttempt c id i { s with members } := h.kept rfl h.row rfl h.bound ⟨rfl, rfl, rfl⟩

theorem writes_row (h : InstanceAttempt c id i s) (f : Instance → Instance)
    (same : (f i).toLifecycle = i.toLifecycle) (bound : ∀ e, (f i).passwordEnc = some e ∨
      (f i).passwordCandidateEnc = some e → e.boundTo = id) :
    InstanceAttempt c id (f i) { s with instances := s.instances.modify id f } := by
  refine h.kept rfl ?_ same bound ⟨rfl, rfl, rfl⟩
  simp only [Table.lookup_modify_self, h.row, Option.map_some]

theorem claims_members (h : InstanceAttempt c id i s) : ∃ claimed s', InstanceAttempt c id i s' ∧
    ¬s'.MembersWait id ∧ ∀ token, s.transact token (.claimMembers c) = .ok (claimed, s') := by
  let members := s.members.updateWhere (fun _ m => m.instanceId == id && m.status.isActive)
    fun m => { m with status := .running }
  have hclaim : ∃ claimed, s.claimMembers c = .ok (claimed, { s with members }) := by
    simp only [Store.claimMembers, h.claimed, found, bind, Except.bind, pure, Except.pure]
    exact ⟨_, rfl⟩
  obtain ⟨claimed, hclaim⟩ := hclaim
  refine ⟨claimed, { s with members }, h.writes_members members, ?_, fun _ => hclaim⟩
  rintro ⟨memberId, m', row', hid, waits⟩
  obtain ⟨m, -, rfl⟩ := Table.lookup_updateWhere_some.mp row'
  by_cases hactive : (m.instanceId == id && m.status.isActive) = true
  · rw [if_pos hactive] at waits
    cases waits
  · rw [if_neg hactive] at hid waits
    simp [hid, waits, Status.isActive] at hactive

theorem claims_cleanup (h : InstanceAttempt c id i s) {name : String}
    (named : i.argocdApplicationName = some name) (nonempty : name ≠ "") : ∃ claimed s',
    InstanceAttempt c id i s' ∧ (s'.MembersWait id → s.MembersWait id) ∧
    ∀ token, s.transact token (.claimCleanup c) = .ok (claimed, s') := by
  let claims := fun (_ : UUID) (m : Member) =>
    m.instanceId == id && (m.status == .running || m.status == .error)
  let members := s.members.updateWhere claims fun m => { m with status := .running }
  have hclaim : ∃ claimed, s.claimCleanup c = .ok (claimed, { s with members }) := by
    simp only [Store.claimCleanup, h.claimed, named, nonempty, found, bind, Except.bind, pure,
      Except.pure, if_false]
    exact ⟨_, rfl⟩
  obtain ⟨claimed, hclaim⟩ := hclaim
  refine ⟨claimed, { s with members }, h.writes_members members, ?_, fun _ => hclaim⟩
  rintro ⟨memberId, m', row', hid, waits⟩
  obtain ⟨m, row, rfl⟩ := Table.lookup_updateWhere_some.mp row'
  by_cases hclaims : claims memberId m = true
  · rw [if_pos hclaims] at waits
    cases waits
  · rw [if_neg hclaims] at hid waits
    exact ⟨memberId, m, row, hid, waits⟩

/-- The end of an update settles the instance, or goes on with the members that wait. -/
theorem finalises (h : InstanceAttempt c id i s) (memberIds : List UUID) (name : String) :
    ∃ answer s' i', s'.instances.lookup id = some i' ∧
      ((i'.action = i.action ∧ i'.status = .success) ∨ (s.MembersWait id ∧ i'.action = .updating ∧ i'.status = .pending ∧
        i'.step = some .instanceUpdateStep01)) ∧
      ∀ token, s.transact token (.finalizeUpdate c memberIds name) = .ok (answer, s') := by
  obtain ⟨job, howned, htype, hid, hinstance, -⟩ := h.owned
  let s₁ := Store.settleExecution (Store.finalizeMembers { s with
    instances := s.instances.modify id fun i => { i with argocdApplicationName := some name } }
      id memberIds) c job
  have hrow : s₁.instances.lookup id = some { i with
      argocdApplicationName := some name, status := .success, step := none } := by
    simp only [s₁, Store.settleExecution, Store.modifyResource, htype, hid, Store.modifyLifecycle,
      Store.modifyJob, Store.finalizeMembers, Table.lookup_modify_self, h.row, Option.map_some]
  have hmembers : ∀ memberId m', s₁.members.lookup memberId = some m' → m'.status = .pending →
      s.members.lookup memberId = some m' := by
    intro memberId m' row' waits
    simp only [s₁, Store.settleExecution, Store.modifyResource, htype, hid, Store.modifyLifecycle,
      Store.modifyJob, Store.finalizeMembers] at row'
    obtain ⟨m, row, rfl⟩ := Table.lookup_updateWhere_some.mp row'
    split at waits
    · cases waits
    · rename_i hother
      rw [if_neg hother]
      exact (Table.lookup_deleteWhere_some.mp row).1
  by_cases hwaits : s₁.members.any fun _ m => m.instanceId == id && m.status == .pending
  · obtain ⟨memberId, m, row, hm⟩ := Table.any_eq_true.mp hwaits
    simp only [Bool.and_eq_true, beq_iff_eq] at hm
    let next := s₁.addJobExecution .instanceUpdate StepName.instanceUpdateStep01.task
      (some .instance) (some id) .instanceUpdateStep01
    let staged : Lifecycle := {
      action := .updating, status := .pending, jobId := some next.1, step := some .instanceUpdateStep01 }
    refine ⟨.pending next.1, next.2.modifyLifecycle .instance id fun _ => staged,
      { i with toLifecycle := staged, argocdApplicationName := some name }, ?_, .inr ⟨?_, rfl, rfl, rfl⟩,
      fun _ => ?_⟩
    · exact (Table.lookup_modify_self _ _ _).trans (congrArg (Option.map _) hrow)
    · exact ⟨memberId, m, hmembers memberId m row hm.2, hm.1, hm.2⟩
    · simp only [Store.transact, Store.finalizeUpdate, howned, hinstance]
      exact if_pos hwaits
  · refine ⟨.success, s₁, _, hrow, .inl ⟨rfl, rfl⟩, fun _ => ?_⟩
    simp only [Store.transact, Store.finalizeUpdate, howned, hinstance]
    exact if_neg hwaits

theorem prepares (h : InstanceAttempt c id i s) (creating : i.action = .creating) :
    ∃ password i' s', InstanceAttempt c id i' s' ∧ i'.action = .creating ∧
      (i'.passwordEnc ≠ none ∨ i'.passwordCandidateEnc ≠ none) ∧
      s.transact "" (.prepareBootstrap c) = .ok (some ⟨id, false, password⟩, s') := by
  obtain ⟨job, howned, htype, hid, hinstance, haction⟩ := h.owned
  have hupdate : (job.name == .instanceUpdate) = false := by
    rw [creating] at haction
    cases hname : job.name <;> simp_all [resourceActions]
  simp only [Store.transact, Store.prepareBootstrap, howned, hinstance, found, hupdate, bind,
    Except.bind, pure, Except.pure]
  cases hset : i.passwordEnc with
  | some e => exact ⟨none, i, s, h, creating, .inl (hset ▸ Option.some_ne_none e), rfl⟩
  | none =>
      cases hcandidate : i.passwordCandidateEnc with
      | some e =>
          refine ⟨some e.plaintext, i, s, h, creating, .inr (hcandidate ▸ Option.some_ne_none e), ?_⟩
          simp only [Sealed.decrypt, h.bound e (.inr hcandidate), if_true]
      | none =>
          refine ⟨some "", _, _, h.writes_row (fun i => { i with
            passwordCandidateEnc := some (.encrypt "" id) }) rfl ?_, creating,
            .inr (Option.some_ne_none _), rfl⟩
          rintro e (he | he)
          · cases hset.symm.trans he
          · cases he
            rfl

theorem starts (h : InstanceAttempt c id i s) (name : Option String) : ∃ i' s',
    InstanceAttempt c id i' s' ∧ i'.action = i.action ∧
    ∀ token, s.transact token (.storeStartedApplication c name) = .ok (true, s') := by
  obtain ⟨job, howned, -, -, hinstance, -⟩ := h.owned
  refine ⟨_, _, h.writes_row (fun i => { i with
    argocdApplicationName := name <|> i.argocdApplicationName, state := .started }) rfl h.bound, rfl,
    fun _ => ?_⟩
  simp only [Store.transact, Store.storeStartedApplication, howned, hinstance, found, bind,
    Except.bind, pure, Except.pure]

end InstanceAttempt

def MovedOn (id : UUID) (action : Action) (step : StepName) (w : World) : Prop :=
  ∃ i, w.store.instances.lookup id = some i ∧ i.action = action ∧ i.status = .pending ∧
    i.step = some step

def Settled (id : UUID) (action : Action) (w : World) : Prop :=
  ∃ i, w.store.instances.lookup id = some i ∧ i.action = action ∧ i.status = .success

section Bodies
variable {c : ExecutionClaim} {id : UUID} {i i₁ : Instance} {w : World} {m : Mutation}

theorem canReturn_dispatch {ok : Bool → World → Prop} (step : StepName) (jobId : UUID)
    (next : ok true w) : CanReturn manager (dispatchRegisteredStep step.task jobId) w ok := by
  have hregistered : step.task.isRegistered = true := rfl
  rw [dispatchRegisteredStep, if_pos hregistered]
  exact .tryCatch (canReturn_request (.flag true) rfl next)

namespace InstanceAttempt
open InstanceAttempt (Applies)

theorem canReturn_advanceTo (h : InstanceAttempt c id i w.store) (applies : Applies m w.store id i₁)
    (step : StepName) : CanReturn manager (advanceTo c step m) w fun _ w' =>
      w'.store.members = w.store.members ∧ MovedOn id i₁.action step w' := by
  obtain ⟨s', hmembers, hrow, commits⟩ := h.advances applies step.task step
  refine canReturn_bind.mpr (canReturn_transact commits ?_)
  exact canReturn_bind.mpr (canReturn_dispatch step _ ⟨hmembers, _, hrow, rfl, rfl, rfl⟩)

theorem canReturn_complete (h : InstanceAttempt c id i w.store) (applies : Applies m w.store id i₁) :
    CanReturn manager (complete c m) w fun _ w' => Settled id i₁.action w' := by
  obtain ⟨s', hrow, commits⟩ := h.completes applies
  exact canReturn_bind.mpr (canReturn_transact commits ⟨_, hrow, rfl, rfl⟩)

theorem canReturn_heartbeat (h : InstanceAttempt c id i w.store) (lost : WorkerError)
    {ok : Unit → World → Prop}
    (next : ∀ s, InstanceAttempt c id i s → ok () { w with store := s }) :
    CanReturn manager (heartbeatOwned c lost) w ok := by
  obtain ⟨s, hs, -, commits⟩ := h.heartbeats
  exact canReturn_bind.mpr (canReturn_transact commits (next s hs))

theorem canReturn_requiredResourceId (h : InstanceAttempt c id i w.store)
    {ok : UUID → World → Prop} (next : ok id w) :
    CanReturn manager (liftExcept c.requiredResourceId) w ok := by
  rw [h.requiredResourceId]
  exact next

theorem canReturn_snapshot (h : InstanceAttempt c id i w.store) (missing : WorkerError)
    {ok : InstanceSnapshot → World → Prop}
    (next : ok ⟨id, i.slug, i.argocdApplicationName, w.store.activeMembers id⟩ w) :
    CanReturn manager (query (.instanceSnapshot c.resourceId missing)) w ok := by
  refine canReturn_query ?_ next
  simp only [Store.answer, Store.instanceSnapshot, h.claimed, found, bind, Except.bind, pure,
    Except.pure]

theorem canReturn_password (h : InstanceAttempt c id i w.store) (set : i.passwordEnc ≠ none)
    {ok : InstanceUrl × String → World → Prop} (next : ∀ password, ok (id, password) w) :
    CanReturn manager (requiredAdminPassword id) w ok := by
  obtain ⟨e, he⟩ := Option.ne_none_iff_exists'.mp set
  refine canReturn_bind.mpr (canReturn_query (a := some (id, e.plaintext)) ?_ (next e.plaintext))
  simp only [Store.answer, Store.storedAdminPassword, h.row, he, Sealed.decrypt, h.bound e (.inl he),
    found, if_true, bind, Except.bind, pure, Except.pure]

theorem canReturn_reconcile (h : InstanceAttempt c id i w.store) (slug : String)
    (attachedName : Option String) (members : List (String × MemberRole))
    {ok : ArgoCdReconcileResult → World → Prop} (next : ∀ name, ok ⟨.completed, name⟩ w) :
    CanReturn manager (reconcile id slug attachedName members) w ok := by
  obtain ⟨⟨⟨target, name⟩, htarget⟩, kubeconfig, hkubeconfig⟩ := h.equipped
  refine canReturn_bind.mpr (canReturn_bind.mpr (canReturn_query htarget ?_))
  refine canReturn_bind.mpr (canReturn_query hkubeconfig ?_)
  exact canReturn_request (.outcome .completed "") rfl (next _)

theorem applies_name (h : InstanceAttempt c id i w.store) (name : String) (missing : WorkerError) :
    Applies (.storeApplicationName name missing) w.store id
      { i with argocdApplicationName := some name, state := .started } :=
  h.applies_onInstance missing
    (fun i => .ok { i with argocdApplicationName := some name, state := .started }) rfl fun _ => rfl

theorem canReturn_createSchema (h : InstanceAttempt c id i w.store) :
    CanReturn manager (Tasks.createSchema c) w fun _ w' =>
      MovedOn id i.action .instanceCreateStep02 w' := by
  obtain ⟨⟨target, htarget⟩, -⟩ := h.equipped
  refine canReturn_bind.mpr (h.canReturn_requiredResourceId ?_)
  refine canReturn_bind.mpr (canReturn_query htarget ?_)
  refine canReturn_bind.mpr (canReturn_request .done rfl ?_)
  exact (h.canReturn_advanceTo h.applies_none _).mono fun _ _ hmoved => hmoved.2

theorem canReturn_createInstance (h : InstanceAttempt c id i w.store) :
    CanReturn manager (Tasks.createInstance c) w fun _ w' =>
      MovedOn id i.action .instanceCreateStep03 w' := by
  refine canReturn_bind.mpr (h.canReturn_snapshot _ ?_)
  refine canReturn_bind.mpr (h.canReturn_reconcile _ _ _ fun name => ?_)
  exact (h.canReturn_advanceTo (h.applies_name name _) _).mono fun _ _ hmoved => hmoved.2

theorem canReturn_bootstrapAdmin (h : InstanceAttempt c id i w.store)
    (creating : i.action = .creating) :
    CanReturn manager (Tasks.bootstrapAdmin c) w fun _ w' => Settled id .creating w' := by
  obtain ⟨password, i', s', h', hcreating, hset, hprepare⟩ := h.prepares creating
  have hperform : manager.perform (.transaction (.prepareBootstrap c)) (.token "") w =
      (.ok (some ⟨id, false, password⟩), { w with store := s' }) := by
    change w.perform (.token "") (.transaction (.prepareBootstrap c)) = _
    simp only [World.perform, hprepare]
  have hpromote : ∃ i₁, Mutation.promote i' = .ok i₁ ∧ i₁.action = .creating := by
    unfold Mutation.promote
    split
    · exact ⟨_, rfl, hcreating⟩
    · exact ⟨_, rfl, hcreating⟩
    · rename_i hnone hnone'
      exact absurd hset (by simp [hnone, hnone'])
  obtain ⟨i₁, hpromote, haction⟩ := hpromote
  refine canReturn_bind.mpr (.perform (.token "") hperform ?_)
  have hend : CanReturn manager (complete c .promotePassword) { w with store := s' }
      fun _ w' => Settled id .creating w' :=
    haction ▸ h'.canReturn_complete (h'.applies_onInstance _ Mutation.promote hpromote fun _ => rfl)
  cases password with
  | none => exact hend
  | some password =>
      refine canReturn_bind.mpr (canReturn_bind.mpr (canReturn_request (.flag false) rfl ?_))
      exact canReturn_request .done rfl hend

theorem canReturn_updateInstance (h : InstanceAttempt c id i w.store) :
    CanReturn manager (Tasks.updateInstance c) w fun _ w' =>
      MovedOn id i.action .instanceUpdateStep02 w' ∧ ¬w'.store.MembersWait id := by
  obtain ⟨claimed, s', h', taken, commits⟩ := h.claims_members
  refine canReturn_bind.mpr (canReturn_transact commits (canReturn_bind.mpr (.tryCatch ?_)))
  refine canReturn_bind.mpr (canReturn_requiredResourceId (w := { w with store := s' }) h' ?_)
  refine canReturn_reconcile (w := { w with store := s' }) h' _ _ _ fun name => ?_
  refine (canReturn_advanceTo (w := { w with store := s' }) h' (applies_name h' name _) _).mono ?_
  rintro - w' ⟨hmembers, hmoved⟩
  refine ⟨hmoved, fun ⟨memberId, m, row, waits⟩ => taken ⟨memberId, m, ?_, waits⟩⟩
  exact hmembers ▸ row

theorem canReturn_cleanupUserAccounts {expectedUsernames : List String} {password : String}
    {url : InstanceUrl} (h : InstanceAttempt c id i w.store) (lost : WorkerError)
    {ok : List String → World → Prop}
    (next : ∀ s, InstanceAttempt c id i s → s.members = w.store.members →
      ok [] { w with store := s }) :
    CanReturn manager (Coder.cleanupUserAccounts url password expectedUsernames
      (heartbeatOwned c lost)) w ok := by
  obtain ⟨s, hs, hmembers, commits⟩ := h.heartbeats
  refine canReturn_bind.mpr (canReturn_request (.flag true) rfl ?_)
  refine canReturn_bind.mpr (canReturn_request .done rfl ?_)
  refine canReturn_bind.mpr (canReturn_bind.mpr (canReturn_transact commits ?_))
  exact canReturn_bind.mpr (canReturn_request (.names []) rfl (next s hs hmembers))

theorem canReturn_cleanupUsers (h : InstanceAttempt c id i w.store) (protectedUsernames : List String)
    (set : i.passwordEnc ≠ none) {name : String} (named : i.argocdApplicationName = some name)
    (nonempty : name ≠ "") :
    CanReturn manager (Tasks.cleanupUsers protectedUsernames c) w fun _ w' =>
      Settled id i.action w' ∨
        (w.store.MembersWait id ∧ MovedOn id .updating .instanceUpdateStep01 w') := by
  obtain ⟨claimed, s₁, h₁, hwait, commits⟩ := h.claims_cleanup named nonempty
  refine canReturn_bind.mpr (canReturn_transact commits ?_)
  refine canReturn_bind.mpr (canReturn_requiredResourceId (w := { w with store := s₁ }) h₁ ?_)
  refine canReturn_bind.mpr
    (canReturn_password (w := { w with store := s₁ }) h₁ set fun password => ?_)
  refine canReturn_bind.mpr (.tryCatch (canReturn_cleanupUserAccounts (w := { w with store := s₁ }) h₁ _
    fun s₂ h₂ hmembers => ?_))
  obtain ⟨answer, s', i', row', hend, commits⟩ :=
    h₂.finalises claimed.memberIds claimed.applicationName
  have hgoal : Settled id i.action { w with store := s' } ∨
      (w.store.MembersWait id ∧ MovedOn id .updating .instanceUpdateStep01 { w with store := s' }) := by
    rcases hend with ⟨haction, hstatus⟩ | ⟨⟨memberId, m, row, waits⟩, hmoved⟩
    · exact .inl ⟨i', row', haction, hstatus⟩
    · exact .inr ⟨hwait ⟨memberId, m, hmembers ▸ row, waits⟩, i', row', hmoved⟩
  refine canReturn_bind.mpr (canReturn_transact (w := { w with store := s₂ }) commits ?_)
  cases answer with
  | noop => exact hgoal
  | success => exact hgoal
  | pending nextJobId => exact canReturn_bind.mpr (canReturn_dispatch _ _ hgoal)

theorem canReturn_startInstance (h : InstanceAttempt c id i w.store) (set : i.passwordEnc ≠ none) :
    CanReturn manager (Tasks.startInstance c) w fun _ w' =>
      MovedOn id i.action .instanceUpdateStep02 w' := by
  refine canReturn_bind.mpr (h.canReturn_snapshot _ ?_)
  refine canReturn_bind.mpr (h.canReturn_password set fun password => ?_)
  refine canReturn_bind.mpr (h.canReturn_reconcile _ _ _ fun name => ?_)
  exact (h.canReturn_advanceTo (h.applies_name name _) _).mono fun _ _ hmoved => hmoved.2

theorem canReturn_stopWorkspaces (h : InstanceAttempt c id i w.store) (fuel : Nat) :
    CanReturn manager (Tasks.stopWorkspaces fuel c) w fun _ w' =>
      MovedOn id i.action .instanceStopStep02 w' := by
  refine canReturn_bind.mpr (h.canReturn_snapshot _ ?_)
  refine canReturn_bind.mpr (h.canReturn_requiredResourceId ?_)
  refine canReturn_bind.mpr (canReturn_request (.flag false) rfl ?_)
  exact (h.canReturn_advanceTo h.applies_none _).mono fun _ _ hmoved => hmoved.2

theorem applies_stopped (h : InstanceAttempt c id i w.store) :
    Applies .markStopped w.store id { i with state := .stopped } :=
  h.applies_onInstance (.typeError "Instance is missing") (fun i => .ok { i with state := .stopped })
    rfl fun _ => rfl

theorem canReturn_stopInstance (h : InstanceAttempt c id i w.store) :
    CanReturn manager (Tasks.stopInstance c) w fun _ w' => Settled id i.action w' := by
  refine canReturn_bind.mpr (h.canReturn_snapshot _ ?_)
  refine canReturn_bind.mpr (h.canReturn_requiredResourceId ?_)
  refine canReturn_bind.mpr (canReturn_request (.outcome .completed "") rfl ?_)
  have hend := h.canReturn_complete h.applies_stopped
  exact hend

theorem canReturn_deleteAllWorkspaces {url : InstanceUrl} {password : String}
    (h : InstanceAttempt c id i w.store) (lost : WorkerError) {ok : List UUID → World → Prop}
    (next : ∀ s, InstanceAttempt c id i s → ok [] { w with store := s }) :
    CanReturn manager (Coder.deleteAllWorkspaces url password (heartbeatOwned c lost) 2) w ok := by
  have before : ∀ (message : String) {w : World} {ok : Unit → World → Prop}, ok () w →
      CanReturn manager (Coder.requireBeforeDeadline message) w ok :=
    fun message w ok hok => canReturn_bind.mpr (canReturn_request (.flag true) rfl hok)
  refine canReturn_bind.mpr (canReturn_bind.mpr (before _ ?_))
  refine canReturn_bind.mpr (h.canReturn_heartbeat lost fun s₁ h₁ => ?_)
  refine canReturn_bind.mpr (.tryCatch (canReturn_bind.mpr (canReturn_request .done rfl ?_)))
  refine canReturn_bind.mpr (before _ (canReturn_bind.mpr (canReturn_bind.mpr ?_)))
  refine canReturn_heartbeat (w := { w with store := s₁ }) h₁ lost fun s₂ h₂ => ?_
  exact canReturn_bind.mpr (canReturn_request (.page ⟨[], 0⟩) rfl (next s₂ h₂))

theorem canReturn_removeWorkspaces (h : InstanceAttempt c id i w.store) (set : i.passwordEnc ≠ none) :
    CanReturn manager (Tasks.removeWorkspaces 2 c) w fun _ w' =>
      MovedOn id i.action .instanceDeleteStep02 w' := by
  refine canReturn_bind.mpr (h.canReturn_snapshot _ ?_)
  refine canReturn_bind.mpr (h.canReturn_requiredResourceId ?_)
  refine canReturn_bind.mpr (h.canReturn_password set fun password => ?_)
  refine canReturn_bind.mpr (canReturn_request (.flag true) rfl ?_)
  obtain ⟨i₁, s₁, h₁, haction, commits⟩ := h.starts i.argocdApplicationName
  refine canReturn_bind.mpr (canReturn_pure.mpr (canReturn_bind.mpr ?_))
  refine canReturn_transact commits (canReturn_bind.mpr ?_)
  refine canReturn_deleteAllWorkspaces (w := { w with store := s₁ }) h₁ _ fun s₂ h₂ => ?_
  rw [← haction]
  exact (canReturn_advanceTo (w := { w with store := s₂ }) h₂ h₂.applies_none _).mono
    fun _ _ hmoved => hmoved.2

theorem canReturn_removeInstance (h : InstanceAttempt c id i w.store) :
    CanReturn manager (Tasks.removeInstance c) w fun _ w' =>
      MovedOn id i.action .instanceDeleteStep03 w' := by
  refine canReturn_bind.mpr (h.canReturn_snapshot _ ?_)
  refine canReturn_bind.mpr (h.canReturn_requiredResourceId ?_)
  refine canReturn_bind.mpr (canReturn_request (.outcome .completed "") rfl ?_)
  exact (h.canReturn_advanceTo h.applies_stopped _).mono fun _ _ hmoved => hmoved.2

theorem canReturn_removeSchema (h : InstanceAttempt c id i w.store) :
    CanReturn manager (Tasks.removeSchema c) w fun _ w' =>
      MovedOn id i.action .instanceDeleteStep04 w' := by
  obtain ⟨⟨target, htarget⟩, -⟩ := h.equipped
  refine canReturn_bind.mpr (h.canReturn_requiredResourceId ?_)
  refine canReturn_bind.mpr (canReturn_query htarget ?_)
  refine canReturn_bind.mpr (canReturn_request .done rfl ?_)
  exact (h.canReturn_advanceTo h.applies_none _).mono fun _ _ hmoved => hmoved.2

theorem canReturn_removeLocalConfiguration (h : InstanceAttempt c id i w.store) :
    CanReturn manager (Tasks.removeLocalConfiguration c) w fun _ w' =>
      w'.store.instances.lookup id = none := by
  obtain ⟨s', hgone, commits⟩ := h.removes
  exact canReturn_bind.mpr (canReturn_transact commits hgone)

end InstanceAttempt
end Bodies
end CoderManager
