import CoderManager.Discipline.Attempts

/-!
# Rules for the Argo CD requests of an attempt

An attempt reads the name of its Application before it asks Argo CD for anything, and
records the name that a reconciliation answered with.
-/
namespace CoderManager
open Programs

def ReadsName (h : WorkerHistory) (c : ExecutionClaim) (slug : String)
    (attachedName : Option String) : Prop :=
  (∃ missing snapshot, Read h (.instanceSnapshot c.resourceId missing) snapshot ∧
    snapshot.slug = slug ∧ snapshot.attachedName = attachedName) ∨
  ∃ claimed, Wrote h (.claimMembers c) claimed ∧ claimed.slug = slug ∧
    claimed.attachedName = attachedName

def ReportsName (h : WorkerHistory) (c : ExecutionClaim) (name : String) : Prop :=
  ∃ id slug attachedName members helmValues, ReadsName h c slug attachedName ∧
    Called h (.reconcileInstanceApplication id slug attachedName members helmValues)
      ⟨.completed, name⟩

/-- The Helm values are what the database says of this instance. -/
structure ReadsValues (h : WorkerHistory) (id : UUID) (slug : String)
    (values : InstanceHelmValues) : Prop where
  slug : values.slug = slug
  publicUrl : values.publicUrl = id
  target : Read h (.managedDatabaseTarget id) (some (values.target, values.managedDatabaseName))
  kubeconfig : Read h (.storedKubeconfig id) values.kubeconfig

def storesStarted : {β : Type} → Op β → Bool
  | _, .transaction (.storeStartedApplication _ _) => true
  | _, _ => false

def asksArgoCd (step : StepName) : Prop :=
  step ∈ [StepName.instanceCreateStep02, .instanceUpdateStep01, .instanceStartStep01,
    .instanceStopStep01, .instanceStopStep02, .instanceDeleteStep01, .instanceDeleteStep02]

theorem Reconciles.asks {h : WorkerHistory} {c : ExecutionClaim} {id : UUID}
    {members : List (String × MemberRole)} (hr : Reconciles h c id members) : asksArgoCd c.step := by
  unfold asksArgoCd
  cases hr with
  | update step | start step =>
      rw [step]
      decide
  | restore step =>
      rcases step with step | step <;>
        rw [step] <;> decide

/-- What Argo CD is asked, and which names are recorded. -/
def applicationRule (h : WorkerHistory) (c : ExecutionClaim) : {β : Type} → Op β → Prop
  | _, .call (.reconcileInstanceApplication id slug attachedName _ values) =>
      c.resourceId = some id ∧ ReadsName h c slug attachedName ∧ ReadsValues h id slug values
  | _, .call (.deleteInstanceApplication id slug attachedName)
  | _, .call (.instanceApplicationExists id slug attachedName) =>
      c.resourceId = some id ∧ ReadsName h c slug attachedName
  | _, .transaction (.advanceExecution _ _ _ (.storeApplicationName name _)) => ReportsName h c name
  | _, .transaction (.storeStartedApplication _ restored) =>
      (∀ e ∈ h, storesStarted e.op = false) ∧
        ((∃ slug, ReadsName h c slug restored) ∨ ∃ name, restored = some name ∧ ReportsName h c name)
  | _, _ => True

/-- The rule as a protocol. -/
abbrev addressing : Protocol Op WorkerError := attempts asksArgoCd applicationRule

section Steps
variable {h h' : WorkerHistory} {c : ExecutionClaim}

theorem ReadsName.later {slug : String} {attachedName : Option String}
    (hr : ReadsName h c slug attachedName) (hs : h <:+ h') : ReadsName h' c slug attachedName := by
  rcases hr with ⟨missing, snapshot, hread, hsame⟩ | ⟨claimed, hwrote, hsame⟩
  · exact .inl ⟨missing, snapshot, hread.later hs, hsame⟩
  · exact .inr ⟨claimed, hwrote.later hs, hsame⟩

theorem advance_keeps {step : StepName} {mutate : Mutation} (hc : Holds h c)
    (allowed : applicationRule h c (.transaction (.advanceExecution c step.task step mutate))) :
    Keeps addressing (advanceTo c step mutate) h := by
  refine .bind (.perform (attempts_guard hc allowed)) fun committed h₁ hs₁ => ?_
  refine .ite (fun _ => .bind ?_ fun _ _ _ => .pure _) fun _ => .pure _
  refine .ite (fun _ => ?_) fun _ => .pure _
  exact .tryCatch (.perform (attempts_guard (hc.later hs₁) trivial)) fun _ _ _ => .pure _

theorem release_keeps {mutate : Mutation} (hc : Holds h c) :
    Keeps addressing (defer c mutate) h :=
  .bind (.perform (attempts_guard hc trivial)) fun _ _ _ => .pure _

theorem heartbeat_permits (hc : Holds h c) (lost : WorkerError) :
    Permits addressing h (heartbeatOwned c lost) := by
  refine .always ?_ fun h' hs => ?_
  · intro h' hs β k hk
    refine attempts_guard (hc.later hs) ?_
    cases k <;> first | exact trivial | rcases hk with ⟨⟨⟩⟩ | ⟨⟨⟩⟩
  · refine .bind (.perform (attempts_guard (hc.later hs) trivial)) fun current _ _ => ?_
    cases current
    · exact .throw _
    · exact .pure ()

theorem adminPassword_bind {α : Type} {id : UUID} {k : InstanceUrl × String → Worker α}
    (hc : Holds h c)
    (rest : ∀ credentials e, storesStarted e.op = false → Keeps addressing (k credentials) (e :: h)) :
    Keeps addressing (requiredAdminPassword id >>= k) h := by
  refine obeys_bind.mpr (obeys_bind.mpr (obeys_perform.mpr
    ⟨attempts_guard hc trivial, fun credentials _ => ?_, fun _ _ => trivial⟩))
  cases credentials with
  | none => exact trivial
  | some credentials => exact rest credentials _ rfl

theorem reconcile_addresses {id : UUID} {slug : String} {attachedName : Option String}
    {members : List (String × MemberRole)} (hc : Holds h c) (resource : c.resourceId = some id)
    (reads : ReadsName h c slug attachedName) (first : ∀ e ∈ h, storesStarted e.op = false) :
    Obeys addressing (reconcile id slug attachedName members) h
      (fun r h' => h <:+ h' ∧ (∀ e ∈ h', storesStarted e.op = false) ∧
        (r.status = .completed → ReportsName h' c r.applicationName)) (fun _ h' => h <:+ h') := by
  refine obeys_bind.mpr (obeys_bind.mpr (obeys_perform.mpr ⟨attempts_guard hc trivial, ?_,
    fun _ _ => List.suffix_cons _ _⟩))
  intro target _
  cases target with
  | none => exact List.suffix_cons _ _
  | some target =>
      obtain ⟨target, name⟩ := target
      have hc₁ := hc.cons ⟨.query (.managedDatabaseTarget id), .ok (some (target, name))⟩
      refine obeys_bind.mpr (obeys_perform.mpr ⟨attempts_guard hc₁ trivial, ?_, fun _ _ =>
        (List.suffix_cons _ _).trans (List.suffix_cons _ _)⟩)
      intro kubeconfig _
      have hs : h <:+ (⟨.query (.storedKubeconfig id), .ok kubeconfig⟩ : WorkerEvent) ::
          ⟨.query (.managedDatabaseTarget id), .ok (some (target, name))⟩ :: h :=
        (List.suffix_cons _ _).trans (List.suffix_cons _ _)
      refine obeys_perform.mpr ⟨attempts_guard (hc₁.cons _) ⟨resource, reads.later hs, rfl, rfl,
        List.mem_cons_of_mem _ List.mem_cons_self, List.mem_cons_self⟩, ?_, fun _ _ =>
        hs.trans (List.suffix_cons _ _)⟩
      intro r _
      refine ⟨hs.trans (List.suffix_cons _ _), ?_, fun hcompleted => ?_⟩
      · exact List.forall_mem_cons.mpr ⟨rfl, List.forall_mem_cons.mpr ⟨rfl,
          List.forall_mem_cons.mpr ⟨rfl, first⟩⟩⟩
      · obtain ⟨status, reported⟩ := r
        subst hcompleted
        exact ⟨id, slug, attachedName, members, _, reads.later (hs.trans (List.suffix_cons _ _)),
          List.mem_cons_self⟩

end Steps

namespace Tasks
variable {c : ExecutionClaim}

theorem reads_snapshot (missing : WorkerError) (snapshot : InstanceSnapshot) {h : WorkerHistory} :
    ReadsName (⟨.query (.instanceSnapshot c.resourceId missing), .ok snapshot⟩ :: h) c snapshot.slug
      snapshot.attachedName :=
  .inl ⟨missing, snapshot, List.mem_cons_self, rfl, rfl⟩

theorem createInstance_addresses : Keeps addressing (createInstance c) [claimEvent c] := by
  refine .perform_bind (attempts_guard Holds.start trivial) fun snapshot hsnap => ?_
  have hc := Holds.start.cons (c := c) ⟨.query (.instanceSnapshot c.resourceId
    (.typeError "Instance is missing")), .ok snapshot⟩
  refine obeys_bind.mpr ((reconcile_addresses hc hsnap (reads_snapshot _ _) ?_).mono ?_
    (fun _ _ _ => trivial))
  · simp [storesStarted, claimEvent]
  · rintro r h' ⟨hs, -, hreports⟩
    cases hst : r.status with
    | deferred => exact release_keeps (hc.later hs)
    | completed => exact advance_keeps (hc.later hs) (hreports hst)

theorem updateInstance_addresses : Keeps addressing (updateInstance c) [claimEvent c] := by
  refine .perform_bind (attempts_guard Holds.start trivial) fun claimed _ => ?_
  have hc := Holds.start.cons (c := c) ⟨.transaction (.claimMembers c), .ok claimed⟩
  refine obeys_bind.mpr (obeys_tryCatch.mpr (obeys_bind.mpr ?_))
  have fails : ∀ {ok : ArgoCdReconcileResult → WorkerHistory → Prop} e h',
      (⟨.transaction (.claimMembers c), .ok claimed⟩ : WorkerEvent) :: [claimEvent c] <:+ h' →
      Obeys addressing (do
        transact (.failExecution c (.failMembers claimed.memberIds))
        throw e : Worker ArgoCdReconcileResult) h' ok (fun _ _ => True) := by
    intro ok e h' hs
    exact obeys_bind.mpr (obeys_perform.mpr ⟨attempts_guard (hc.later hs) trivial,
      fun _ _ => trivial, fun _ _ => trivial⟩)
  cases hid : c.resourceId with
  | none =>
      simp only [ExecutionClaim.requiredResourceId, hid, liftExcept, obeys_throw]
      exact fails _ _ List.suffix_rfl
  | some instanceId =>
      simp only [ExecutionClaim.requiredResourceId, hid, liftExcept, obeys_pure]
      have hreads : ReadsName ((⟨.transaction (.claimMembers c), .ok claimed⟩ : WorkerEvent) ::
          [claimEvent c]) c claimed.slug claimed.attachedName :=
        .inr ⟨claimed, List.mem_cons_self, rfl, rfl⟩
      refine (reconcile_addresses hc hid hreads ?_).mono ?_ (fun e h' hs => fails e h' hs)
      · simp [storesStarted, claimEvent]
      · rintro r h' ⟨hs, -, hreports⟩
        cases hst : r.status with
        | deferred => exact release_keeps (hc.later hs)
        | completed => exact advance_keeps (hc.later hs) (hreports hst)

theorem startInstance_addresses : Keeps addressing (startInstance c) [claimEvent c] := by
  refine .perform_bind (attempts_guard Holds.start trivial) fun snapshot hsnap => ?_
  have hc := Holds.start.cons (c := c) ⟨.query (.instanceSnapshot c.resourceId
    (.runtimeError "Instance is missing")), .ok snapshot⟩
  refine adminPassword_bind hc fun credentials e he => ?_
  refine obeys_bind.mpr ((reconcile_addresses (hc.cons e) hsnap
    ((reads_snapshot _ _).later (List.suffix_cons _ _)) ?_).mono ?_ (fun _ _ _ => trivial))
  · exact List.forall_mem_cons.mpr ⟨he, by simp [storesStarted, claimEvent]⟩
  · rintro r h' ⟨hs, -, hreports⟩
    cases hst : r.status with
    | deferred => exact release_keeps ((hc.cons e).later hs)
    | completed => exact advance_keeps ((hc.cons e).later hs) (hreports hst)

theorem stopWorkspaces_addresses (fuel : Nat) :
    Keeps addressing (stopWorkspaces fuel c) [claimEvent c] := by
  refine .perform_bind (attempts_guard Holds.start trivial) fun snapshot hsnap => ?_
  have hc := Holds.start.cons (c := c) ⟨.query (.instanceSnapshot c.resourceId
    (.runtimeError "Instance is missing")), .ok snapshot⟩
  cases hid : c.resourceId with
  | none =>
      simp only [ExecutionClaim.requiredResourceId, hid, liftExcept]
      exact .throw _
  | some instanceId =>
      rw [hid] at hc
      simp only [ExecutionClaim.requiredResourceId, hid, liftExcept]
      have hreads := reads_snapshot (c := c) (h := [claimEvent c])
        (.runtimeError "Instance is missing") snapshot
      rw [hid] at hreads
      refine .perform_bind (attempts_guard hc ⟨hid, hreads⟩) fun present _ => ?_
      have hfinish : ∀ h', _ <:+ h' → Keeps addressing (advanceTo c .instanceStopStep02 .none) h' :=
        fun h' hs => advance_keeps (hc.later hs) trivial
      cases present with
      | false => exact hfinish _ (List.suffix_cons _ _)
      | true =>
          refine adminPassword_bind (hc.cons _) fun credentials e _ => ?_
          obtain ⟨url, password⟩ := credentials
          refine .bind (Coder.stopActiveWorkspaces_keeps (heartbeat_permits ((hc.cons _).cons _) _) _ _)
            fun _ h' hs => ?_
          exact hfinish h' (((List.suffix_cons _ _).trans (List.suffix_cons _ _)).trans hs)

theorem deleteApplication_addresses {missing : WorkerError}
    {k : ArgoCdMutationStatus → Worker TaskStatus}
    (rest : ∀ outcome h', Holds h' c → Keeps addressing (k outcome) h') :
    Keeps addressing (do
      let snapshot ← query (.instanceSnapshot c.resourceId missing)
      let instanceId ← liftExcept c.requiredResourceId
      k (← request (.deleteInstanceApplication instanceId snapshot.slug snapshot.attachedName)))
      [claimEvent c] := by
  refine .perform_bind (attempts_guard Holds.start trivial) fun snapshot _ => ?_
  have hc := Holds.start.cons (c := c) ⟨.query (.instanceSnapshot c.resourceId missing), .ok snapshot⟩
  have hreads := reads_snapshot (c := c) (h := [claimEvent c]) missing snapshot
  cases hid : c.resourceId with
  | none =>
      simp only [ExecutionClaim.requiredResourceId, hid, liftExcept]
      exact .throw _
  | some instanceId =>
      rw [hid] at hc hreads
      simp only [ExecutionClaim.requiredResourceId, hid, liftExcept]
      exact .perform_bind (attempts_guard hc ⟨hid, hreads⟩) fun outcome _ => rest _ _ (hc.cons _)

theorem stopInstance_addresses : Keeps addressing (stopInstance c) [claimEvent c] := by
  refine deleteApplication_addresses fun outcome h' hc => ?_
  cases outcome with
  | deferred => exact release_keeps hc
  | completed => exact .bind (.perform (attempts_guard hc trivial)) fun _ _ _ => .pure _

theorem removeInstance_addresses : Keeps addressing (removeInstance c) [claimEvent c] := by
  refine deleteApplication_addresses fun outcome h' hc => ?_
  cases outcome with
  | deferred => exact release_keeps hc
  | completed => exact advance_keeps hc trivial

def removeRestored (fuel : Nat) (c : ExecutionClaim) (url : InstanceUrl) (password : String) :
    Option (Option String) → Worker TaskStatus
  | none => defer c .none
  | some restoredName => do
      if ← transact (.storeStartedApplication c restoredName) then
        let _ ← Coder.deleteAllWorkspaces url password
          (heartbeatOwned c (.runtimeError "Instance delete attempt is no longer current")) fuel
        advanceTo c .instanceDeleteStep02 .none
      else return .noop

theorem removeWorkspaces_addresses (fuel : Nat) :
    Keeps addressing (removeWorkspaces fuel c) [claimEvent c] := by
  refine .perform_bind (attempts_guard Holds.start trivial) fun snapshot hsnap => ?_
  have hc := Holds.start.cons (c := c) ⟨.query (.instanceSnapshot c.resourceId
    (.runtimeError "Instance is missing")), .ok snapshot⟩
  have hreads := reads_snapshot (c := c) (h := [claimEvent c])
    (.runtimeError "Instance is missing") snapshot
  cases hid : c.resourceId with
  | none =>
      simp only [ExecutionClaim.requiredResourceId, hid, liftExcept]
      exact .throw _
  | some instanceId =>
      rw [hid] at hc hreads
      simp only [ExecutionClaim.requiredResourceId, hid, liftExcept]
      refine adminPassword_bind hc fun credentials e he => ?_
      obtain ⟨url, password⟩ := credentials
      obtain rfl : instanceId = snapshot.instanceId := Option.some.inj (hid.symm.trans hsnap)
      refine .perform_bind (attempts_guard (hc.cons e)
        ⟨hid, hreads.later (List.suffix_cons _ _)⟩) fun present _ => ?_
      have hfirst : ∀ e' ∈ (⟨.call (.instanceApplicationExists snapshot.instanceId snapshot.slug
          snapshot.attachedName), .ok present⟩ : WorkerEvent) :: e ::
          ⟨.query (.instanceSnapshot (some snapshot.instanceId) (.runtimeError "Instance is missing")),
            .ok snapshot⟩ :: [claimEvent c], storesStarted e'.op = false := by
        refine List.forall_mem_cons.mpr ⟨rfl, List.forall_mem_cons.mpr ⟨he, ?_⟩⟩
        simp [storesStarted, claimEvent]
      have hreads' : ReadsName ((⟨.call (.instanceApplicationExists snapshot.instanceId snapshot.slug
          snapshot.attachedName), .ok present⟩ : WorkerEvent) :: e ::
          ⟨.query (.instanceSnapshot (some snapshot.instanceId) (.runtimeError "Instance is missing")),
            .ok snapshot⟩ :: [claimEvent c]) c snapshot.slug snapshot.attachedName :=
        hreads.later ((List.suffix_cons _ _).trans (List.suffix_cons _ _))
      have hc' := (hc.cons e).cons ⟨.call (.instanceApplicationExists snapshot.instanceId
        snapshot.slug snapshot.attachedName), .ok present⟩
      have finish : ∀ restored h', Holds h' c → (∀ name, restored = some name →
          applicationRule h' c (.transaction (.storeStartedApplication c name))) →
          Keeps addressing (removeRestored fuel c url password restored) h' := by
        intro restored h' hc' allowed
        cases restored with
        | none => exact release_keeps hc'
        | some restoredName =>
            refine .bind (.perform (attempts_guard hc' (allowed _ rfl))) fun stored h₁ hs₁ => ?_
            refine .ite (fun _ => ?_) fun _ => .pure _
            have hc₁ := hc'.later hs₁
            refine .bind (Coder.deleteAllWorkspaces_keeps (heartbeat_permits hc₁ _) _ _)
              fun ids h₂ hs₂ => advance_keeps (hc₁.later hs₂) trivial
      cases present with
      | true =>
          refine finish (some snapshot.attachedName) _ hc' fun name hname => ?_
          obtain rfl := Option.some.inj hname
          exact ⟨hfirst, .inl ⟨_, hreads'⟩⟩
      | false =>
          refine obeys_bind.mpr ((reconcile_addresses hc' hid hreads' hfirst).mono ?_
            (fun _ _ _ => trivial))
          rintro r h' ⟨hs, hstored, hreports⟩
          cases hst : r.status with
          | deferred => exact finish none _ (hc'.later hs) fun name hname => by cases hname
          | completed =>
              refine finish (some (some r.applicationName)) _ (hc'.later hs) fun name hname => ?_
              obtain rfl := Option.some.inj hname
              exact ⟨hstored, .inr ⟨_, rfl, hreports hst⟩⟩

end Tasks

/-- Every attempt that asks Argo CD for something goes by its own reads. -/
theorem run_addresses (ls : List Step) {e : Entry Op WorkerError World Change} {rest : Trace}
    (hs : e :: rest <:+ (run ls).trace) {worker : Nat} {event : WorkerEvent}
    (what : e.what = .called worker event) {c : ExecutionClaim}
    (held : Holds (workerHistory worker rest) c) (hstep : asksArgoCd c.step) :
    applicationRule (workerHistory worker rest) c event.op := by
  refine run_attempts asksArgoCd applicationRule ?_ ls hs what held hstep
  intro protectedUsernames fuel step c _ hin
  have hkeeps : Keeps addressing (Body.operation protectedUsernames fuel step c) [claimEvent c] := by
    simp only [asksArgoCd, List.mem_cons, List.not_mem_nil, or_false] at hin
    rcases hin with rfl | rfl | rfl | rfl | rfl | rfl | rfl
    · exact Tasks.createInstance_addresses
    · exact Tasks.updateInstance_addresses
    · exact Tasks.startInstance_addresses
    · exact Tasks.stopWorkspaces_addresses fuel
    · exact Tasks.stopInstance_addresses
    · exact Tasks.removeWorkspaces_addresses fuel
    · exact Tasks.removeInstance_addresses
  exact .of_keeps hkeeps fun _ => trivial

end CoderManager
