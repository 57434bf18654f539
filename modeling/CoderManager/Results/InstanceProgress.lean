import CoderManager.Results.ApplicationNames
import CoderManager.Results.InstanceAttempts
import CoderManager.Results.ScannerRecovery

/-!
# No instance is stuck

Whatever happened before, workers, the clock and the recovery scan alone can bring every
instance that is not settled to the end of its action: the scan dispatches the job of the
instance, the delivery is carried through, and fewer steps are left.
-/
namespace CoderManager
open Programs Tables Leases

/-- A recovery scan among the workers from this one on has dispatched the job. -/
def DispatchedSince (base : Nat) (t : Trace) (task : TaskName) (jobId : UUID) : Prop :=
  ∃ scan now, base ≤ scan ∧ [(⟨.query .now, .ok now⟩ : WorkerEvent)] <:+ workerHistory scan t ∧
    Called (workerHistory scan t) (.delay task jobId) true

/-- Steps without requests. What is delivered was dispatched by a scan among the workers
from this one on. -/
def unattended (jobStaleAfterSeconds base : Nat) (σ : Manager) : Step → Prop
  | .act _ _ => True
  | .spawn (.deliver task jobId _ _) => DispatchedSince base σ.trace task jobId
  | .spawn (.retryJobExecutions seconds) => seconds = jobStaleAfterSeconds
  | .spawn .checkInstanceStates => True
  | .change (.tick _) => True
  | .change (.request _) => False

structure SameStage (id : UUID) (s s' : Store) : Prop where
  members : s'.members = s.members
  row : ∀ i, s.instances.lookup id = some i → ∃ status,
    s'.instances.lookup id = some { i with status := status }

section Scans
variable {s s' s'' : Store} {id jobId : UUID} {w : World}

theorem SameStage.refl (id : UUID) (s : Store) : SameStage id s s := ⟨rfl, fun i row => ⟨i.status, row⟩⟩

theorem SameStage.trans (h : SameStage id s s') (h' : SameStage id s' s'') : SameStage id s s'' := by
  refine ⟨h'.members.trans h.members, fun i row => ?_⟩
  obtain ⟨status, row'⟩ := h.row i row
  obtain ⟨status', row''⟩ := h'.row _ row'
  exact ⟨status', row''⟩

theorem sameStage_prepare (s : Store) (id j : UUID) (limit : Time) :
    SameStage id s (s.prepareExecutionRetry j limit).2 := by
  rcases s.prepareExecutionRetry_cases j limit with heq | ⟨job, -, -, ⟨-, heq⟩ | ⟨-, -, heq⟩⟩
  · rw [heq]
    exact .refl id s
  · rw [heq]
    exact .refl id s
  · rw [heq]
    refine ⟨?_, fun i row => ?_⟩
    · unfold Store.modifyResource Store.modifyLifecycle
      split
      · split <;> rfl
      · rfl
    · unfold Store.modifyResource Store.modifyLifecycle
      split
      · rename_i type id' _ _
        split
        · by_cases hid : id = id'
          · subst hid
            exact ⟨.pending, (Table.lookup_modify_self _ _ _).trans (congrArg _ row)⟩
          · exact ⟨i.status, (Table.lookup_modify_ne _ _ hid).trans row⟩
        all_goals exact ⟨i.status, row⟩
      · exact ⟨i.status, row⟩

theorem canRecord_retryJob (staleBefore : Time) (counts : Nat × Nat) (j : UUID) (h : WorkerHistory) :
    CanRecord manager (Tasks.retryJob staleBefore counts j) w h fun _ w' h' =>
      w' = { w with store := (w.store.prepareExecutionRetry j staleBefore).2 } ∧ h <:+ h' ∧
        ∀ task, (w.store.prepareExecutionRetry j staleBefore).1 = some task →
          task.isRegistered = true → Called h' (.delay task j) true := by
  have commits : manager.perform (.transaction (.prepareExecutionRetry j staleBefore)) .done w =
      (.ok (w.store.prepareExecutionRetry j staleBefore).1,
        { w with store := (w.store.prepareExecutionRetry j staleBefore).2 }) := rfl
  refine canRecord_bind.mpr (.perform .done commits ?_)
  cases (w.store.prepareExecutionRetry j staleBefore).1 with
  | none => exact ⟨rfl, List.suffix_cons _ _, fun task htask => by cases htask⟩
  | some task =>
      refine canRecord_bind.mpr ?_
      unfold dispatchRegisteredStep
      split
      · refine .tryCatch (.perform (a := true) (.flag true) rfl ⟨rfl, ?_, fun task' htask _ => ?_⟩)
        · exact (List.suffix_cons _ _).trans (List.suffix_cons _ _)
        · obtain rfl := Option.some.inj htask
          exact List.mem_cons_self
      · rename_i hunknown
        refine ⟨rfl, List.suffix_cons _ _, fun task' htask hregistered => ?_⟩
        obtain rfl := Option.some.inj htask
        exact absurd hregistered hunknown

/-- A scan that selected the job of an instance returns and dispatches it, and keeps the
rest of the row. -/
theorem canRecord_foldEach {task : TaskName} {attempt : Nat} {staleBefore : Time} (ids : List UUID)
    (counts : Nat × Nat) (h : WorkerHistory) (registered : task.isRegistered = true)
    (ready : Ready .instance id jobId task attempt staleBefore w.store)
    (todo : jobId ∈ ids ∨ (Parked jobId w.store ∧ Called h (.delay task jobId) true)) :
    CanRecord manager (foldEach ids counts (Tasks.retryJob staleBefore)) w h fun _ w' h' =>
      Ready .instance id jobId task attempt staleBefore w'.store ∧ Parked jobId w'.store ∧
        SameStage id w.store w'.store ∧ h <:+ h' ∧ Called h' (.delay task jobId) true := by
  induction ids generalizing w counts h with
  | nil =>
      obtain ⟨hparked, hcalled⟩ := todo.resolve_left List.not_mem_nil
      exact ⟨ready, hparked, .refl id _, List.suffix_rfl, hcalled⟩
  | cons j ids ih =>
      refine canRecord_bind.mpr ((canRecord_retryJob staleBefore counts j h).mono ?_)
      rintro counts' w' h₁ ⟨rfl, hs₁, hdispatched⟩
      obtain ⟨hready, hstill⟩ := ready.prepare j staleBefore
      have htodo : jobId ∈ ids ∨ (Parked jobId (w.store.prepareExecutionRetry j staleBefore).2 ∧
          Called h₁ (.delay task jobId) true) := by
        rcases todo with hmem | ⟨hparked, hcalled⟩
        · rcases List.mem_cons.mp hmem with rfl | hmem
          · obtain ⟨hprepared, hparked⟩ := ready.prepare_self
            exact .inr ⟨hparked, hdispatched task hprepared registered⟩
          · exact .inl hmem
        · exact .inr ⟨hstill hparked, hcalled.later hs₁⟩
      refine (ih counts' h₁ hready htodo).mono ?_
      rintro - w' h₂ ⟨hready', hparked', hsame, hs₂, hcalled⟩
      exact ⟨hready', hparked', (sameStage_prepare w.store id j staleBefore).trans hsame,
        hs₁.trans hs₂, hcalled⟩

theorem canRecord_scan {task : TaskName} {attempt : Nat} {h : WorkerHistory}
    (jobStaleAfterSeconds : Nat) (fresh : h = []) (registered : task.isRegistered = true)
    (ready : Ready .instance id jobId task attempt (w.store.now - jobStaleAfterSeconds) w.store) :
    CanRecord manager (Body.retryJobExecutions jobStaleAfterSeconds).program w h fun _ w' h' =>
      Ready .instance id jobId task attempt (w.store.now - jobStaleAfterSeconds) w'.store ∧
        Parked jobId w'.store ∧ SameStage id w.store w'.store ∧
        (∃ now, [(⟨.query .now, .ok now⟩ : WorkerEvent)] <:+ h') ∧
        Called h' (.delay task jobId) true := by
  subst fresh
  refine canRecord_bind.mpr (canRecord_bind.mpr (.perform .done rfl ?_))
  refine canRecord_bind.mpr (.perform .done rfl ?_)
  refine (canRecord_foldEach _ _ _ registered ready (.inl ready.selected)).mono ?_
  rintro - w' h' ⟨hready, hparked, hsame, hs, hcalled⟩
  exact ⟨hready, hparked, hsame, ⟨_, (List.suffix_cons _ _).trans hs⟩, hcalled⟩

theorem Ready.waits {type : ResourceType} {task : TaskName} {attempt : Nat} {staleBefore : Time}
    {r : Lifecycle} (ready : Ready type id jobId task attempt staleBefore s) (hs : Sound s)
    (parked : Parked jobId s) (row : s.lifecycle type id = some r) :
    r.status = .pending ∨ r.status = .error := by
  obtain ⟨r', hr', hnamed⟩ := ready.named
  cases row.symm.trans hr'
  obtain ⟨job, hjob, -, -, -, -, hretry⟩ := ready
  rw [← hs.current_status row hnamed hjob]
  rcases isRetryable_iff.mp hretry with h | h | ⟨h, -⟩
  · exact .inl h
  · exact .inr h
  · exact absurd h (parked job hjob)

end Scans

/-- The instance waits for an attempt, and a scan has dispatched its job. -/
structure Due (base : Nat) (id : UUID) (i : Instance) (step : StepName) (σ : Manager) : Prop where
  row : σ.world.store.instances.lookup id = some i
  waiting : i.status = .pending ∨ i.status = .error
  atStep : i.step = some step
  dispatched : ∃ j, i.jobId = some j ∧ DispatchedSince base σ.trace step.task j

/-- A state of a run in which the workers up to this one have been started. -/
def Onward (base : Nat) (σ : Manager) : Prop := (∃ steps, σ = run steps) ∧ base ≤ σ.threads.length

theorem late_enough (at_ now : Int) (seconds : Nat) :
    ∃ elapsed : Nat, at_ ≤ now + elapsed - seconds := ⟨(at_ - now + seconds).toNat, by omega⟩

section Runs
variable {steps : List Step} {base : Nat} {id : UUID} {i : Instance}

theorem reach_due (jobStaleAfterSeconds : Nat) (started : base ≤ (run steps).threads.length)
    (row : (run steps).world.store.instances.lookup id = some i)
    (recoverable : Recoverable (run steps).world.store i.toLifecycle
      ((run steps).world.store.now - jobStaleAfterSeconds)) :
    CanReach manager (unattended jobStaleAfterSeconds base) (run steps) fun σ =>
      Onward base σ ∧ SameStage id (run steps).world.store σ.world.store ∧
        ∃ i' step, Due base id i' step σ := by
  obtain ⟨jobId, job, hj, hjob, hregistered, hready⟩ :=
    (run_reaches steps).sound.ready (Store.lifecycle_instance row) recoverable
  have hfresh : workerHistory (run steps).threads.length (run steps).trace = [] :=
    (Machine.run_disciplined manager_supports Sound.empty Body.program_keeps steps).fresh _
      (Nat.le_refl _)
  have hscans : unattended jobStaleAfterSeconds base (run steps)
      (.spawn (.retryJobExecutions jobStaleAfterSeconds)) := rfl
  have hscan : CanReach manager (unattended jobStaleAfterSeconds base) (run steps) _ :=
    .spawn hscans (canRecord_scan jobStaleAfterSeconds hfresh hregistered hready)
      fun _ _ => trivial
  refine (hscan.runs started).mono ?_
  rintro - ⟨⟨⟨steps', rfl⟩, honward⟩, hready', hparked, hsame, ⟨now, hnow⟩, hcalled⟩
  obtain ⟨status, row'⟩ := hsame.row i row
  have hwaits := hready'.waits (run_reaches steps').sound hparked (Store.lifecycle_instance row')
  have hactive : status ≠ .success := by
    intro hsuccess
    rcases hwaits with h | h <;> cases h.symm.trans hsuccess
  -- The task of the job is that of the step the instance is at.
  obtain ⟨jobId', job', hj', hjob', -, -, hstep, -, -, -, htask⟩ :=
    (run_reaches steps').sound.active_job (Store.lifecycle_instance row') hactive
  obtain rfl : jobId' = jobId := Option.some.inj (hj'.symm.trans hj)
  obtain ⟨job₀, hjob₀, -, -, htask₀, -⟩ := hready'
  obtain rfl := Option.some.inj (hjob'.symm.trans hjob₀)
  refine ⟨⟨⟨steps', rfl⟩, honward⟩, ⟨hsame.members, hsame.row⟩, _, job'.step, row', hwaits, hstep,
    jobId', hj, _, now, started, hnow, ?_⟩
  rw [← htask, htask₀]
  exact hcalled

theorem reach_waits (jobStaleAfterSeconds : Nat) (started : base ≤ (run steps).threads.length)
    (row : (run steps).world.store.instances.lookup id = some i) (active : i.status ≠ .success) :
    CanReach manager (unattended jobStaleAfterSeconds base) (run steps) fun σ =>
      Onward base σ ∧ SameStage id (run steps).world.store σ.world.store ∧
        ∃ i' step, Due base id i' step σ := by
  cases hstatus : i.status with
  | success => exact absurd hstatus active
  | pending => exact reach_due jobStaleAfterSeconds started row (.inl hstatus)
  | error => exact reach_due jobStaleAfterSeconds started row (.inr (.inl hstatus))
  | running =>
      obtain ⟨j, job, hj, hjob, -, -, -, -, hsame, -⟩ :=
        (run_reaches steps).sound.active_job (Store.lifecycle_instance row) active
      have hclaimed : job.claimedAt ≠ none := by
        have hlease : (run steps).world.store.ledger.jobs j = some job.lease := by
          simp [Store.ledger, hjob]
        exact ((run_reaches steps).sound.ledger.clock j job.lease hlease).mp (hsame.trans hstatus)
      obtain ⟨at_, hat⟩ := Option.ne_none_iff_exists'.mp hclaimed
      -- The clock is moved until the claim is stale.
      obtain ⟨elapsed, helapsed⟩ : ∃ elapsed : Nat, at_ ≤ (run steps).world.store.now + elapsed -
          jobStaleAfterSeconds := late_enough _ _ _
      have hlater : run (steps ++ [.change (.tick elapsed)]) =
          manager.step (run steps) (.change (.tick elapsed)) := manager.run_append steps _
      have hscan := @reach_due (steps ++ [.change (.tick elapsed)]) base id i jobStaleAfterSeconds
      rw [hlater] at hscan
      refine .step (l := .change (.tick elapsed)) trivial ((hscan started row
        (.inr (.inr ⟨hstatus, j, job, at_, hj, hjob, hat, helapsed⟩))).mono ?_)
      rintro σ ⟨honward, hstage, hdue⟩
      exact ⟨honward, ⟨hstage.members, hstage.row⟩, hdue⟩

theorem Run.claims_instance {w : World} {t : Trace} (h : Run w t) {step : StepName} {j : UUID}
    (row : w.store.instances.lookup id = some i) (waiting : i.status = .pending ∨ i.status = .error)
    (atStep : i.step = some step) (named : i.jobId = some j) :
    ∃ c s', InstanceAttempt c id { i with status := .running } s' ∧ s'.members = w.store.members ∧
      ∀ token, w.store.transact token (.claimExecution j step.task) = .ok (some c, s') := by
  have hlifecycle : w.store.lifecycle .instance id = some i.toLifecycle :=
    Store.lifecycle_instance row
  have hactive : i.status ≠ .success := by
    rcases waiting with h | h <;> simp [h]
  obtain ⟨j', job, hj, hjob, htype, hid, hstep, haction, hstatus, -, htask⟩ :=
    h.sound.active_job hlifecycle hactive
  cases atStep.symm.trans hstep
  obtain rfl := Option.some.inj (named.symm.trans hj)
  have hmatch : resourceMatches j job (some i.toLifecycle) = true := by
    simp only [resourceMatches, htype, haction, hj, hstep, beq_self_eq_true, Bool.and_self]
  have hresource : w.store.resourceForJob job = some i.toLifecycle := by
    simp only [Store.resourceForJob, htype, hid, hlifecycle]
  let job' := { job with status := .running, attempt := job.attempt + 1, claimedAt := some w.store.now }
  let s' := (w.store.modifyJob j fun _ => job').modifyResource job fun r => { r with status := .running }
  have hs' : s' = { w.store with
      jobs := w.store.jobs.modify j fun _ => job'
      instances := w.store.instances.modify id fun i => { i with status := .running } } := by
    simp only [s', Store.modifyResource, htype, hid, Store.modifyLifecycle, Store.modifyJob]
  refine ⟨job'.claim j, s', ⟨?_, ?_, ?_, (h.credited id i row).bound⟩, ?_, fun token => ?_⟩
  · refine ⟨job', ?_, rfl, rfl, htype, hid, hmatch⟩
    simp only [hs', JobExecution.claim, Table.lookup_modify_self, hjob, Option.map_some]
  · simp only [hs', Table.lookup_modify_self, row, Option.map_some]
  · obtain ⟨a, d, password, -, -, -, htarget⟩ := h.serves_databases row
    have hkubeconfig := (h.serves_kubeconfigs row).1
    rw [hs']
    exact ⟨⟨_, htarget⟩, _, hkubeconfig⟩
  · rw [hs']
  · have hidle : ¬(job.taskName ≠ job.step.task ∨ (job.status ≠ .pending ∧ job.status ≠ .error)) := by
      rw [hstatus, htask]
      rcases waiting with hwait | hwait <;> simp [hwait]
    simp only [Store.transact, Store.claimExecution, hjob, hresource, hmatch, if_true]
    exact congrArg Except.ok (if_neg hidle)

theorem reach_attempt (jobStaleAfterSeconds : Nat) {step : StepName} {good : World → Prop}
    (started : base ≤ (run steps).threads.length) (due : Due base id i step (run steps))
    (carries : ∀ c s', InstanceAttempt c id { i with status := .running } s' →
      s'.members = (run steps).world.store.members →
      CanReturn manager (Body.operation [] 2 step c) { (run steps).world with store := s' }
        fun _ w' => good w') :
    CanReach manager (unattended jobStaleAfterSeconds base) (run steps) fun σ =>
      Onward base σ ∧ good σ.world := by
  obtain ⟨j, named, hdispatched⟩ := due.dispatched
  obtain ⟨c, s', hattempt, hmembers, commits⟩ :=
    (run_reaches steps).claims_instance due.row due.waiting due.atStep named
  have hdelivers : unattended jobStaleAfterSeconds base (run steps)
      (.spawn (.deliver (.registered step) j [] 2)) := hdispatched
  have hreturns : CanReturn manager (Body.deliver (.registered step) j [] 2).program
      (run steps).world fun _ w' => good w' := by
    refine canReturn_bind.mpr (canReturn_bind.mpr (canReturn_transact commits ?_))
    exact .tryCatch (carries c s' hattempt hmembers)
  exact (CanReach.spawn hdelivers hreturns.records fun _ _ => trivial).runs started

end Runs

theorem Run.deletion_password {w : World} {t : Trace} (h : Run w t) : ∀ id i,
    w.store.instances.lookup id = some i → i.step = some .instanceDeleteStep01 →
      i.passwordEnc ≠ none := by
  refine h.induction (motive := fun w _ => ∀ id i, w.store.instances.lookup id = some i →
    i.step = some .instanceDeleteStep01 → i.passwordEnc ≠ none) ?start ?move
  case start =>
    intro id i row
    cases row
  case move =>
    intro w t what w' hrun hm ih id i' row' hstep
    have kept : ∀ i, w.store.instances.lookup id = some i → i.step = some .instanceDeleteStep01 →
        i'.passwordEnc ≠ none := by
      intro i row hstep
      obtain ⟨e, he⟩ := Option.ne_none_iff_exists'.mp (ih id i row hstep)
      rw [hm.password_kept hrun.sound row row' he]
      exact Option.some_ne_none e
    rcases hm.store_cases with heq | ⟨now, heq⟩ | ⟨r, -, hr⟩ | ⟨worker, β, tr, a, -, allowed, hc⟩
    · exact kept i' (heq ▸ row') hstep
    · exact kept i' (by simpa [heq] using row') hstep
    · rcases hr.instance_cases row' with ⟨_, _, -, -, rfl⟩ | ⟨i, row, rfl | ⟨l, rfl, hrestart⟩⟩
      · cases hstep
      · exact kept _ row hstep
      · cases hrestart with
        | power _ _ _ staged =>
            rcases staged with ⟨-, rfl⟩ | ⟨-, rfl⟩ | ⟨-, rfl⟩ <;> cases hstep
        | deletion alive settled entry =>
            rcases entry with ⟨rfl, -⟩ | ⟨-, other⟩
            · cases hstep
            · intro hnone
              have hcredited := hrun.credited id i row
              rcases settled with hsuccess | ⟨hcreating, herror⟩
              · have hready : i.Provisioned := by
                  rcases hcredited.kind with hk | hk | hk
                  · exact hk
                  · exact .inr (.inr (.inr ⟨hk, hsuccess⟩))
                  · exact absurd hk alive
                exact (hcredited.ready hready).1 hnone
              · exact other ⟨hcreating, herror, hnone⟩
    · rcases hc.instance_step row' hstep with ⟨i, row, hstep⟩ | hadvances | hupdates
      · exact kept i row hstep
      · -- No attempt advances to the first step of a deletion.
        unfold AdvancesInstance at hadvances
        split at hadvances
        · obtain ⟨rfl, -⟩ := hadvances
          obtain ⟨-, -, hadvances⟩ := allowed
          cases hadvances
        · exact hadvances.elim
      · cases hupdates

instance (s : Store) (id : UUID) : Decidable (s.MembersWait id) :=
  decidable_of_iff (s.members.any fun _ m => m.instanceId == id && m.status == .pending) <| by
    rw [Table.any_eq_true]
    simp only [Bool.and_eq_true, beq_iff_eq]
    rfl

/-- How many attempts a step is away from the end of the action. -/
def StepName.attemptsLeft (membersWait : Bool) : StepName → Nat
  | .instanceCreateStep01 => 3
  | .instanceCreateStep02 => 2
  | .instanceCreateStep03 => 1
  | .instanceStartStep01 => 4
  | .instanceUpdateStep01 => 2
  | .instanceUpdateStep02 => if membersWait then 3 else 1
  | .instanceStopStep01 => 2
  | .instanceStopStep02 => 1
  | .instanceDeleteStep01 => 4
  | .instanceDeleteStep02 => 3
  | .instanceDeleteStep03 => 2
  | .instanceDeleteStep04 => 1
  | _ => 0

def Store.attemptsLeft (s : Store) (id : UUID) : Nat :=
  match (s.instances.lookup id).bind fun i => i.step with
  | some step => step.attemptsLeft (decide (s.MembersWait id))
  | none => 0

def Concluded (deleting : Prop) (id : UUID) (w : World) : Prop :=
  (deleting → w.store.instances.lookup id = none) ∧
    (¬deleting → ∃ i, w.store.instances.lookup id = some i ∧ i.status = .success)

def Underway (deleting : Prop) (id : UUID) (w : World) : Prop :=
  ∃ i, w.store.instances.lookup id = some i ∧ i.status ≠ .success ∧ (i.action = .deleting ↔ deleting)

section Stages
variable {id : UUID} {i : Instance} {action : Action} {step : StepName} {w : World} {n : Nat}

theorem Store.attemptsLeft_eq {s : Store} (row : s.instances.lookup id = some i)
    (atStep : i.step = some step) : s.attemptsLeft id = step.attemptsLeft (decide (s.MembersWait id)) := by
  simp only [attemptsLeft, row, Option.bind_some, atStep]

def Closer (deleting : Prop) (id : UUID) (n : Nat) (w : World) : Prop :=
  Concluded deleting id w ∨ (Underway deleting id w ∧ w.store.attemptsLeft id < n)

theorem Settled.closer (h : Settled id action w) (alive : action ≠ .deleting) :
    Closer (action = .deleting) id n w := by
  obtain ⟨i, row, -, hsuccess⟩ := h
  exact .inl ⟨fun hdeleting => absurd hdeleting alive, fun _ => ⟨i, row, hsuccess⟩⟩

theorem MovedOn.closer (h : MovedOn id action step w)
    (less : step.attemptsLeft (decide (w.store.MembersWait id)) < n) :
    Closer (action = .deleting) id n w := by
  obtain ⟨i, row, rfl, hpending, hstep⟩ := h
  refine .inr ⟨⟨i, row, by simp [hpending], Iff.rfl⟩, ?_⟩
  rw [Store.attemptsLeft_eq row hstep]
  exact less

end Stages

theorem membersWait_congr {s s' : Store} (same : s'.members = s.members) (id : UUID) :
    s'.MembersWait id ↔ s.MembersWait id := by
  unfold Store.MembersWait
  rw [same]

theorem recorded_name_ne_empty (steps : List Step) {id : UUID} {i : Instance} {name : String}
    (row : (run steps).world.store.instances.lookup id = some i)
    (named : i.argocdApplicationName = some name) : name ≠ "" := by
  obtain ⟨applicationPrefix, rfl⟩ :=
    ((run_reaches steps).namesInOrder (run_addressed steps)).made id i name row named
  exact applicationName_ne_empty applicationPrefix i.slug none

section Descent
variable {steps : List Step} {base : Nat} {id : UUID} {i : Instance} {step : StepName}

theorem reach_closer_cleanup (jobStaleAfterSeconds : Nat)
    (started : base ≤ (run steps).threads.length)
    (due : Due base id i .instanceUpdateStep02 (run steps)) (alive : i.action ≠ .deleting)
    (ready : i.passwordEnc ≠ none ∧ i.argocdApplicationName ≠ none) :
    CanReach manager (unattended jobStaleAfterSeconds base) (run steps) fun σ =>
      Onward base σ ∧ Closer (i.action = .deleting) id
        (StepName.attemptsLeft (decide ((run steps).world.store.MembersWait id))
          .instanceUpdateStep02) σ.world := by
  obtain ⟨name, hname⟩ := Option.ne_none_iff_exists'.mp ready.2
  refine reach_attempt jobStaleAfterSeconds started due fun c s' h hmembers => ?_
  have hbody := InstanceAttempt.canReturn_cleanupUsers (w := { (run steps).world with store := s' }) h
    [] ready.1 hname (recorded_name_ne_empty steps due.row hname)
  refine hbody.mono fun _ w' hend => ?_
  rcases hend with hsettled | ⟨hwaits, hmoved⟩
  · exact hsettled.closer alive
  · have hwaits' : (run steps).world.store.MembersWait id := (membersWait_congr hmembers id).mp hwaits
    have hother : (Action.updating = .deleting) = (i.action = .deleting) := by simp [alive]
    rw [← hother]
    exact hmoved.closer (by simp [StepName.attemptsLeft, hwaits'])

theorem reach_closer_waiting (jobStaleAfterSeconds : Nat)
    (started : base ≤ (run steps).threads.length) (due : Due base id i step (run steps)) :
    CanReach manager (unattended jobStaleAfterSeconds base) (run steps) fun σ =>
      Onward base σ ∧ Closer (i.action = .deleting) id
        ((run steps).world.store.attemptsLeft id) σ.world := by
  have hrun := run_reaches steps
  have row := due.row
  have hactive : i.status ≠ .success := by
    rcases due.waiting with h | h <;> simp [h]
  obtain ⟨j, job, -, hjob, htype, -, hstep, haction, -, hflow, -⟩ :=
    hrun.sound.active_job (Store.lifecycle_instance row) hactive
  have hplaced := (hrun.placed j job hjob).symm.trans htype
  obtain rfl : step = job.step := Option.some.inj (due.atStep.symm.trans hstep)
  rw [Store.attemptsLeft_eq row hstep]
  generalize job.step = step at due hstep hflow
  generalize job.name = name at haction hflow hplaced
  cases name <;> simp only [JobName.steps, List.mem_cons, List.not_mem_nil, or_false] at hflow <;>
    cases hplaced
  case instanceCreate =>
    have hcreating : i.action = .creating := (Option.some.inj haction).symm
    rcases hflow with rfl | rfl | rfl
    · refine reach_attempt jobStaleAfterSeconds started due fun c s' h _ => ?_
      have hbody := InstanceAttempt.canReturn_createSchema
        (w := { (run steps).world with store := s' }) h
      exact hbody.mono fun _ w' hmoved => hmoved.closer (by simp [StepName.attemptsLeft])
    · refine reach_attempt jobStaleAfterSeconds started due fun c s' h _ => ?_
      have hbody := InstanceAttempt.canReturn_createInstance
        (w := { (run steps).world with store := s' }) h
      exact hbody.mono fun _ w' hmoved => hmoved.closer (by simp [StepName.attemptsLeft])
    · refine reach_attempt jobStaleAfterSeconds started due fun c s' h _ => ?_
      have hbody := InstanceAttempt.canReturn_bootstrapAdmin
        (w := { (run steps).world with store := s' }) h hcreating
      rw [hcreating]
      exact hbody.mono fun _ w' hsettled => hsettled.closer (by simp)
  case instanceUpdate =>
    have hupdating : i.action = .updating := (Option.some.inj haction).symm
    have hready := (hrun.credited id i row).ready (.inl hupdating)
    rcases hflow with rfl | rfl
    · refine reach_attempt jobStaleAfterSeconds started due fun c s' h _ => ?_
      have hbody := InstanceAttempt.canReturn_updateInstance
        (w := { (run steps).world with store := s' }) h
      exact hbody.mono fun _ w' hmoved => hmoved.1.closer (by simp [StepName.attemptsLeft, hmoved.2])
    · exact reach_closer_cleanup jobStaleAfterSeconds started due (by simp [hupdating]) hready
  case instanceStart =>
    have hstarting : i.action = .starting := (Option.some.inj haction).symm
    have hready := (hrun.credited id i row).ready (.inr (.inl hstarting))
    rcases hflow with rfl | rfl
    · refine reach_attempt jobStaleAfterSeconds started due fun c s' h _ => ?_
      have hbody := InstanceAttempt.canReturn_startInstance
        (w := { (run steps).world with store := s' }) h hready.1
      exact hbody.mono fun _ w' hmoved => hmoved.closer (by
        simp only [StepName.attemptsLeft]
        split <;> omega)
    · exact reach_closer_cleanup jobStaleAfterSeconds started due (by simp [hstarting]) hready
  case instanceStop =>
    have hstopping : i.action = .stopping := (Option.some.inj haction).symm
    rcases hflow with rfl | rfl
    · refine reach_attempt jobStaleAfterSeconds started due fun c s' h _ => ?_
      have hbody := InstanceAttempt.canReturn_stopWorkspaces
        (w := { (run steps).world with store := s' }) h 2
      exact hbody.mono fun _ w' hmoved => hmoved.closer (by simp [StepName.attemptsLeft])
    · refine reach_attempt jobStaleAfterSeconds started due fun c s' h _ => ?_
      have hbody := InstanceAttempt.canReturn_stopInstance
        (w := { (run steps).world with store := s' }) h
      exact hbody.mono fun _ w' hsettled => hsettled.closer (by simp [hstopping])
  case instanceDelete =>
    have hdeleting : i.action = .deleting := (Option.some.inj haction).symm
    rcases hflow with rfl | rfl | rfl | rfl
    · refine reach_attempt jobStaleAfterSeconds started due fun c s' h _ => ?_
      have hbody := InstanceAttempt.canReturn_removeWorkspaces
        (w := { (run steps).world with store := s' }) h (hrun.deletion_password id i row hstep)
      exact hbody.mono fun _ w' hmoved => hmoved.closer (by simp [StepName.attemptsLeft])
    · refine reach_attempt jobStaleAfterSeconds started due fun c s' h _ => ?_
      have hbody := InstanceAttempt.canReturn_removeInstance
        (w := { (run steps).world with store := s' }) h
      exact hbody.mono fun _ w' hmoved => hmoved.closer (by simp [StepName.attemptsLeft])
    · refine reach_attempt jobStaleAfterSeconds started due fun c s' h _ => ?_
      have hbody := InstanceAttempt.canReturn_removeSchema
        (w := { (run steps).world with store := s' }) h
      exact hbody.mono fun _ w' hmoved => hmoved.closer (by simp [StepName.attemptsLeft])
    · refine reach_attempt jobStaleAfterSeconds started due fun c s' h _ => ?_
      have hbody := InstanceAttempt.canReturn_removeLocalConfiguration
        (w := { (run steps).world with store := s' }) h
      exact hbody.mono fun _ w' hgone => .inl ⟨fun _ => hgone, fun hother => absurd hdeleting hother⟩

/-- An instance that is not settled can be brought closer to the end of its action. -/
theorem reach_closer (jobStaleAfterSeconds : Nat) (started : base ≤ (run steps).threads.length)
    (row : (run steps).world.store.instances.lookup id = some i) (active : i.status ≠ .success) :
    CanReach manager (unattended jobStaleAfterSeconds base) (run steps) fun σ =>
      Onward base σ ∧ Closer (i.action = .deleting) id
        ((run steps).world.store.attemptsLeft id) σ.world := by
  refine (reach_waits jobStaleAfterSeconds started row active).trans ?_
  rintro - ⟨⟨⟨steps', rfl⟩, started'⟩, hsame, i', step, due⟩
  obtain ⟨status, hrow⟩ := hsame.row i row
  obtain rfl := Option.some.inj (hrow.symm.trans due.row)
  have hleft : (run steps').world.store.attemptsLeft id = (run steps).world.store.attemptsLeft id := by
    unfold Store.attemptsLeft
    simp only [row, due.row, Option.bind_some, membersWait_congr hsame.members]
  have hcloser := reach_closer_waiting jobStaleAfterSeconds started' due
  rw [← hleft]
  exact hcloser

/-- Every instance can be brought to the end of its action. -/
theorem reach_concluded (jobStaleAfterSeconds : Nat)
    (row : (run steps).world.store.instances.lookup id = some i) (active : i.status ≠ .success) :
    CanReach manager (unattended jobStaleAfterSeconds (run steps).threads.length) (run steps) fun σ =>
      Concluded (i.action = .deleting) id σ.world := by
  refine CanReach.of_rank
    (fun σ => Onward (run steps).threads.length σ ∧ Underway (i.action = .deleting) id σ.world)
    (fun σ => σ.world.store.attemptsLeft id) ?_
    ⟨⟨⟨steps, rfl⟩, Nat.le_refl _⟩, i, row, active, Iff.rfl⟩
  rintro - ⟨⟨⟨steps', rfl⟩, started⟩, i', row', active', hsame⟩
  refine (reach_closer jobStaleAfterSeconds started row' active').mono ?_
  rintro σ ⟨honward, hcloser⟩
  rw [propext hsame] at hcloser
  exact hcloser.imp_right fun h => ⟨⟨honward, h.1⟩, h.2⟩

end Descent

/-- Every instance whose action is not over can be brought to its end: a deletion to the
end of its row, every other action to success. No step on the way is a request, and every
delivery is one that a scan on the way has dispatched. -/
def NeverStuck (jobStaleAfterSeconds : Nat) (steps : List Step) : Prop :=
  ∀ id i, (run steps).world.store.instances.lookup id = some i → i.status ≠ .success →
    ∃ more, Allows manager (unattended jobStaleAfterSeconds (run steps).threads.length) (run steps) more ∧
      (i.action = .deleting → (run (steps ++ more)).world.store.instances.lookup id = none) ∧
      (i.action ≠ .deleting → ∃ i', (run (steps ++ more)).world.store.instances.lookup id = some i' ∧
        i'.status = .success)

/-- Whatever happened before (lost dispatches and answers, crashed workers, refused
requests), no instance waits for a request: the workers and the recovery scan can finish
what it is doing. -/
theorem instances_are_never_stuck (steps : List Step) (jobStaleAfterSeconds : Nat) :
    NeverStuck jobStaleAfterSeconds steps := by
  intro id i row active
  obtain ⟨more, hmore, hconcluded⟩ := reach_concluded jobStaleAfterSeconds row active
  refine ⟨more, hmore, ?_⟩
  have happend : run (steps ++ more) = more.foldl manager.step (run steps) :=
    manager.run_append steps more
  rw [happend]
  exact hconcluded

end CoderManager
