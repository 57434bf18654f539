import CoderManager.Results.JobConsistency

/-!
# Recovery by the scanner

One recovery scan picks up every resource whose job may be retried, whatever
was lost before, and leaves every other job alone. The scan may be interleaved
with anything that keeps off the resource and its job.
-/
namespace CoderManager
open Programs Leases Tables

/-- The resource is waiting for an attempt, or its attempt has gone stale. -/
def Recoverable (s : Store) (r : Lifecycle) (staleBefore : Time) : Prop :=
  r.status = .pending ∨ r.status = .error ∨
    (r.status = .running ∧ ∃ jobId job at_, r.jobId = some jobId ∧
      s.jobs.lookup jobId = some job ∧ job.claimedAt = some at_ ∧ at_ ≤ staleBefore)

/-- Every step but the scan's own leaves the resource, and the job it names, as
they are. -/
def Undisturbed (scan : Nat) (type : ResourceType) (id : UUID) : Manager → List Step → Prop
  | _, [] => True
  | σ, l :: ls =>
      ((∃ reply, l = .act scan reply) ∨
        ((manager.step σ l).world.store.lifecycle type id = σ.world.store.lifecycle type id ∧
          ∀ r jobId, σ.world.store.lifecycle type id = some r → r.jobId = some jobId →
            (manager.step σ l).world.store.jobs.lookup jobId =
              σ.world.store.jobs.lookup jobId)) ∧
      Undisturbed scan type id (manager.step σ l) ls

/-- What a scan may issue: reads, dispatches, and retries with the limit it
computed from the time it read. -/
def scanGuard (jobStaleAfterSeconds : Nat) (h : WorkerHistory) : {β : Type} → Op β → Prop
  | _, .query _ | _, .call _ => True
  | _, .transaction (.prepareExecutionRetry _ staleBefore) =>
      ∃ now, Read h .now now ∧ staleBefore = now - jobStaleAfterSeconds
  | _, .transaction _ => False

def scanning (jobStaleAfterSeconds : Nat) : Protocol Op WorkerError where
  answers := fun _ _ => True
  guard := fun h o => scanGuard jobStaleAfterSeconds h o

def Scanned (jobStaleAfterSeconds : Nat) (h : WorkerHistory) : Prop :=
  ∃ now ids, Read h .now now ∧ Read h (.retryableJobIds (now - jobStaleAfterSeconds)) ids ∧
    ∀ jobId ∈ ids, ∃ answer,
      Wrote h (.prepareExecutionRetry jobId (now - jobStaleAfterSeconds)) answer

section Scan
variable {n : Nat} {h : WorkerHistory} {now : Time}

theorem dispatch_scanning (task : TaskName) (jobId : UUID) :
    Keeps (scanning n) (dispatchRegisteredStep task jobId) h :=
  .ite (fun _ => .tryCatch (.perform trivial) fun _ _ _ => .pure _) fun _ => .pure _

theorem retryJob_scanning (hnow : Read h .now now) (counts : Nat × Nat) (jobId : UUID) :
    Obeys (scanning n) (Tasks.retryJob (now - n) counts jobId) h
      (fun _ h' => h <:+ h' ∧ ∃ answer, Wrote h' (.prepareExecutionRetry jobId (now - n)) answer)
      (fun _ _ => True) := by
  refine obeys_bind.mpr (obeys_perform.mpr ⟨⟨now, hnow, rfl⟩, ?_, fun _ _ => trivial⟩)
  intro answer _
  have hrest : ∀ {p : Worker (Nat × Nat)},
      Keeps (scanning n) p (⟨.transaction (.prepareExecutionRetry jobId (now - n)), .ok answer⟩ :: h) →
      Obeys (scanning n) p (⟨.transaction (.prepareExecutionRetry jobId (now - n)), .ok answer⟩ :: h)
        (fun _ h' => h <:+ h' ∧ ∃ answer, Wrote h' (.prepareExecutionRetry jobId (now - n)) answer)
        (fun _ _ => True) := by
    intro p hp
    refine hp.extends_history.mono (fun _ h' hs => ⟨?_, answer, ?_⟩) fun _ _ _ => trivial
    · exact (List.suffix_cons _ _).trans hs.1
    · exact hs.1.subset List.mem_cons_self
  cases answer with
  | none => exact hrest (.pure _)
  | some task => exact hrest (.bind (dispatch_scanning task jobId) fun _ _ _ => .pure _)

theorem foldEach_scanning (ids : List UUID) (hnow : Read h .now now) (counts : Nat × Nat) :
    Obeys (scanning n) (foldEach ids counts (Tasks.retryJob (now - n))) h
      (fun _ h' => h <:+ h' ∧ ∀ jobId ∈ ids, ∃ answer,
        Wrote h' (.prepareExecutionRetry jobId (now - n)) answer)
      (fun _ _ => True) := by
  induction ids generalizing h counts with
  | nil => exact ⟨List.suffix_rfl, by simp⟩
  | cons jobId ids ih =>
      refine obeys_bind.mpr ((retryJob_scanning hnow counts jobId).mono ?_ fun _ _ _ => trivial)
      rintro counts' h₁ ⟨hs₁, answer, hwrote⟩
      refine (ih (hs₁.subset hnow) counts').mono ?_ fun _ _ _ => trivial
      rintro _ h₂ ⟨hs₂, hall⟩
      exact ⟨hs₁.trans hs₂, List.forall_mem_cons.mpr ⟨⟨answer, hs₂.subset hwrote⟩, hall⟩⟩

theorem scan_scanning (n : Nat) :
    Obeys (scanning n) (Body.retryJobExecutions n).program [] (fun _ h => Scanned n h)
      (fun _ _ => True) := by
  refine obeys_bind.mpr (obeys_bind.mpr (obeys_perform.mpr ⟨trivial, ?_, fun _ _ => trivial⟩))
  intro now _
  refine obeys_bind.mpr (obeys_perform.mpr ⟨trivial, ?_, fun _ _ => trivial⟩)
  intro ids _
  refine (foldEach_scanning ids ?_ _).mono ?_ fun _ _ _ => trivial
  · exact List.mem_cons_of_mem _ List.mem_cons_self
  · rintro _ h ⟨hs, hall⟩
    exact ⟨now, ids, hs.subset (List.mem_cons_of_mem _ List.mem_cons_self),
      hs.subset List.mem_cons_self, hall⟩

end Scan

def Ready (type : ResourceType) (id jobId : UUID) (task : TaskName) (attempt : Nat)
    (staleBefore : Time) (s : Store) : Prop :=
  ∃ job, s.jobs.lookup jobId = some job ∧ job.lease.owner = some (type, some id) ∧
    Matches catalogue s.ledger jobId job.lease ∧ job.taskName = task ∧ job.attempt = attempt ∧
    Store.isRetryable job staleBefore = true

def Parked (jobId : UUID) (s : Store) : Prop :=
  ∀ job, s.jobs.lookup jobId = some job → job.status ≠ .running

section Rows
variable {type : ResourceType} {id jobId : UUID} {task : TaskName} {attempt : Nat}
  {staleBefore : Time} {s s' : Store}

theorem Ready.same (h : Ready type id jobId task attempt staleBefore s)
    (lifecycle : s'.lifecycle type id = s.lifecycle type id)
    (jobs : s'.jobs.lookup jobId = s.jobs.lookup jobId) :
    Ready type id jobId task attempt staleBefore s' := by
  obtain ⟨job, hjob, howner, hm, hrest⟩ := h
  refine ⟨job, jobs.trans hjob, howner, fun key hkey => ?_, hrest⟩
  obtain ⟨r, hr, hmatch⟩ := hm key hkey
  rw [howner, Option.some.injEq] at hkey
  subst hkey
  exact ⟨r, by simpa [Store.ledger, lifecycle] using hr, hmatch⟩

theorem Ready.named (h : Ready type id jobId task attempt staleBefore s) :
    ∃ r, s.lifecycle type id = some r ∧ r.jobId = some jobId := by
  obtain ⟨job, -, howner, hm, -⟩ := h
  obtain ⟨r, hr, hrj, -⟩ := hm _ howner
  exact ⟨r, by simpa [Store.ledger] using hr, hrj⟩

theorem isRetryable_iff {job : JobExecution} :
    Store.isRetryable job staleBefore = true ↔ job.status = .pending ∨ job.status = .error ∨
      (job.status = .running ∧ ∃ at_, job.claimedAt = some at_ ∧ at_ ≤ staleBefore) := by
  unfold Store.isRetryable
  cases job.claimedAt <;> simp [or_assoc]

theorem Ready.prepare_self (h : Ready type id jobId task attempt staleBefore s) :
    (s.prepareExecutionRetry jobId staleBefore).1 = some task ∧
      Parked jobId (s.prepareExecutionRetry jobId staleBefore).2 := by
  obtain ⟨job, hjob, howner, hm, htask, hattempt, hretry⟩ := h
  have hmatch := Store.resourceMatches_iff.mpr hm
  have parked : ∀ st, job.status = st → st ≠ .running → Parked jobId s := by
    intro st hst hne job' hjob' hrun
    rw [hjob, Option.some.injEq] at hjob'
    exact hne (hst ▸ hjob' ▸ hrun)
  rcases isRetryable_iff.mp hretry with hst | hst | ⟨hst, at_, hat, hle⟩
  · refine ⟨by simp [Store.prepareExecutionRetry, hjob, hst, hmatch, htask], ?_⟩
    simpa [Store.prepareExecutionRetry, hjob, hst, hmatch] using parked _ hst (by decide)
  · refine ⟨by simp [Store.prepareExecutionRetry, hjob, hst, hmatch, htask], ?_⟩
    simpa [Store.prepareExecutionRetry, hjob, hst, hmatch] using parked _ hst (by decide)
  · have hlate : ¬at_ > staleBefore := Int.not_lt.mpr hle
    refine ⟨by simp [Store.prepareExecutionRetry, hjob, hst, hmatch, hat, hlate, htask], ?_⟩
    intro job' hjob'
    simp only [Store.prepareExecutionRetry, hjob, hst, hmatch, hat, hlate, reduceCtorEq, if_false,
      if_true, Store.jobs_modifyResource, Store.modifyJob, Table.lookup_modify_self,
      Option.map_some, Option.some.injEq] at hjob'
    simp [← hjob']

theorem Ready.reclaim {job : JobExecution} (hjob : s.jobs.lookup jobId = some job)
    (howner : job.lease.owner = some (type, some id))
    (hm : Matches catalogue s.ledger jobId job.lease) (staleBefore : Time) :
    Ready type id jobId job.taskName job.attempt staleBefore
      ((s.modifyJob jobId fun job => { job with status := .pending, claimedAt := none }).modifyResource
        job fun r => { r with status := .pending }) := by
  refine ⟨{ job with status := .pending, claimedAt := none }, by simp [Store.modifyJob, hjob],
    howner, fun key hkey => ?_, rfl, rfl, by simp [Store.isRetryable]⟩
  obtain ⟨r, hr, hmatch⟩ := hm key hkey
  refine ⟨{ r with status := .pending }, ?_, hmatch⟩
  have hkey' : job.lease.owner = some key := hkey
  rw [howner, Option.some.injEq] at hkey'
  subst hkey'
  have hr' : s.lifecycle type id = some r := by simpa [Store.ledger] using hr
  simp [Store.ledger, Store.lifecycle_modifyResource, howner, hr']

theorem Ready.prepare (h : Ready type id jobId task attempt staleBefore s) (j : UUID)
    (limit : Time) :
    Ready type id jobId task attempt staleBefore (s.prepareExecutionRetry j limit).2 ∧
      (Parked jobId s → Parked jobId (s.prepareExecutionRetry j limit).2) := by
  rcases s.prepareExecutionRetry_cases j limit with heq | ⟨job', hjob', hm', hcase⟩
  · rw [heq]
    exact ⟨h, fun hp => hp⟩
  · rcases hcase with ⟨-, heq⟩ | ⟨hrun, -, heq⟩
    · rw [heq]
      exact ⟨h, fun hp => hp⟩
    · rw [heq]
      have hready := h
      obtain ⟨job, hjob, howner, hm, rfl, rfl, hretry⟩ := hready
      by_cases hj : j = jobId
      · subst hj
        rw [hjob, Option.some.injEq] at hjob'
        subst hjob'
        exact ⟨.reclaim hjob howner hm staleBefore, fun hp => absurd hrun (hp _ hjob)⟩
      · have hframe : ((s.modifyJob j fun job =>
            { job with status := .pending, claimedAt := none }).modifyResource job'
              fun r => { r with status := .pending }).jobs.lookup jobId = s.jobs.lookup jobId := by
          simp [Store.modifyJob, Table.lookup_modify_ne, Ne.symm hj]
        refine ⟨h.same ?_ hframe, fun hp job hjob => hp job (hframe ▸ hjob)⟩
        -- The resource names this job, so it is not the one of the other.
        have hne : job'.lease.owner ≠ some (type, some id) := by
          intro howner'
          obtain ⟨r, hr, hrj, -⟩ := hm _ howner
          obtain ⟨r', hr', hrj', -⟩ := hm' _ howner'
          rw [hr, Option.some.injEq] at hr'
          subst hr'
          exact hj (Option.some.inj (hrj'.symm.trans hrj))
        simp [Store.lifecycle_modifyResource, hne]

theorem Ready.selected (h : Ready type id jobId task attempt staleBefore s) :
    jobId ∈ s.retryableJobIds staleBefore := by
  obtain ⟨job, hjob, -, -, -, -, hretry⟩ := h
  refine List.mem_map.mpr ⟨(jobId, job), ?_, rfl⟩
  rw [List.mem_insertionSort, Table.mem_select]
  exact ⟨hjob, hretry⟩

theorem Ready.claim (h : Ready type id jobId task attempt staleBefore s) (hp : Parked jobId s) :
    ∃ c, (s.claimExecution jobId task).1 = some c ∧ c.attempt = attempt + 1 := by
  obtain ⟨job, hjob, -, hm, rfl, rfl, hretry⟩ := h
  have hmatch := Store.resourceMatches_iff.mpr hm
  have hidle : ¬(job.status ≠ .pending ∧ job.status ≠ .error) := by
    rcases isRetryable_iff.mp hretry with hst | hst | ⟨hst, -⟩
    · simp [hst]
    · simp [hst]
    · exact absurd hst (hp job hjob)
  refine ⟨JobExecution.claim { job with
    status := .running, attempt := job.attempt + 1, claimedAt := some s.now } jobId, ?_, rfl⟩
  simp [Store.claimExecution, hjob, hidle, hmatch]

end Rows

theorem World.perform_prepare (w : World) (reply : Reply) (j : UUID) (limit : Time) :
    w.perform reply (.transaction (.prepareExecutionRetry j limit)) = (.error .databaseError, w) ∨
      w.perform reply (.transaction (.prepareExecutionRetry j limit)) =
        (.ok (w.store.prepareExecutionRetry j limit).1,
          { w with store := (w.store.prepareExecutionRetry j limit).2 }) := by
  unfold World.perform
  split
  · exact .inl rfl
  · exact .inr rfl

/-- While a scan runs, the resource stays ready; once the scan has prepared its
job, the job is parked. -/
structure Scan (scan : Nat) (type : ResourceType) (id jobId : UUID) (task : TaskName)
    (attempt : Nat) (staleBefore : Time) (σ : Manager) : Prop where
  ready : Ready type id jobId task attempt staleBefore σ.world.store
  selected : ∀ ids, Read (workerHistory scan σ.trace) (.retryableJobIds staleBefore) ids →
    jobId ∈ ids
  prepared : ∀ answer,
    Wrote (workerHistory scan σ.trace) (.prepareExecutionRetry jobId staleBefore) answer →
      answer = some task ∧ Parked jobId σ.world.store

section Run
variable {scan : Nat} {type : ResourceType} {id jobId : UUID} {task : TaskName} {attempt : Nat}
  {staleBefore : Time} {σ : Manager} {n : Nat} {p : Worker Unit}
  {ok : Unit → WorkerHistory → Prop} {err : WorkerError → WorkerHistory → Prop}

theorem Scan.record (h : Scan scan type id jobId task attempt staleBefore σ) {w : World}
    {threads : List (Worker Unit)} {e : WorkerEvent}
    (ready : Ready type id jobId task attempt staleBefore w.store)
    (parked : Parked jobId σ.world.store → Parked jobId w.store)
    (selected : ∀ ids, ⟨.query (.retryableJobIds staleBefore), .ok ids⟩ = e → jobId ∈ ids)
    (prepared : ∀ answer,
      ⟨.transaction (.prepareExecutionRetry jobId staleBefore), .ok answer⟩ = e →
        answer = some task ∧ Parked jobId w.store) :
    Scan scan type id jobId task attempt staleBefore
      ⟨w, threads, ⟨σ.world, .called scan e⟩ :: σ.trace⟩ := by
  refine ⟨ready, fun ids hread => ?_, fun answer hwrote => ?_⟩
  · rw [Read, workerHistory, history_called_self] at hread
    rcases List.mem_cons.mp hread with heq | hold
    · exact selected ids heq
    · exact h.selected ids hold
  · rw [Wrote, workerHistory, history_called_self] at hwrote
    rcases List.mem_cons.mp hwrote with heq | hold
    · exact prepared answer heq
    · exact (h.prepared answer hold).imp_right parked

theorem Scan.act (h : Scan scan type id jobId task attempt staleBefore σ)
    (hi : σ.threads[scan]? = some p)
    (hp : Obeys (scanning n) p (workerHistory scan σ.trace) ok err) (reply : Reply) :
    Scan scan type id jobId task attempt staleBefore (manager.step σ (.act scan reply)) := by
  cases p with
  | ret a => simpa [Machine.step, hi] using h
  | raise e => simpa [Machine.step, hi] using h
  | halt => simpa [Machine.step, hi] using h
  | call o k =>
      have hguard := hp.1
      simp only [Machine.step, hi, manager]
      cases o with
      | query q =>
          have hperformed := σ.world.performed reply (.query q)
          generalize σ.world.perform reply (.query q) = answer at hperformed
          obtain ⟨answer, w⟩ := answer
          cases hperformed with
          | answered read =>
              refine h.record h.ready (fun hparked => hparked) (fun ids heq => ?_) fun _ heq => ?_
              · cases heq
                rcases read with read | read
                · cases read
                · cases read
                  exact h.ready.selected
              · cases heq
      | call c =>
          have hperformed := σ.world.performed reply (.call c)
          generalize σ.world.perform reply (.call c) = answer at hperformed
          obtain ⟨answer, w⟩ := answer
          cases hperformed with
          | requested sent =>
              refine h.record h.ready (fun hparked => hparked) (fun _ heq => ?_) fun _ heq => ?_
              · cases heq
              · cases heq
      | transaction t =>
          cases t with
          | prepareExecutionRetry j limit =>
              rcases σ.world.perform_prepare reply j limit with heq | heq
              · rw [heq]
                refine h.record h.ready (fun hparked => hparked) (fun _ heq => ?_) fun _ heq => ?_
                · exact (query_ne_transaction heq).elim
                · cases heq
              · rw [heq]
                obtain ⟨hready, hparked⟩ := h.ready.prepare j limit
                refine h.record hready hparked (fun _ heq => (query_ne_transaction heq).elim)
                  fun answer heq => ?_
                simp only [Event.mk.injEq, heq_eq_eq, Op.transaction.injEq,
                  Transaction.prepareExecutionRetry.injEq, Except.ok.injEq, true_and] at heq
                obtain ⟨⟨rfl, rfl⟩, rfl⟩ := heq
                exact h.ready.prepare_self
          | _ => exact hguard.elim

theorem Scan.other (h : Scan scan type id jobId task attempt staleBefore σ) {l : Step}
    (own : ∀ reply, l ≠ .act scan reply)
    (lifecycle : (manager.step σ l).world.store.lifecycle type id =
      σ.world.store.lifecycle type id)
    (jobs : (manager.step σ l).world.store.jobs.lookup jobId = σ.world.store.jobs.lookup jobId) :
    Scan scan type id jobId task attempt staleBefore (manager.step σ l) := by
  have hhistory : workerHistory scan (manager.step σ l).trace = workerHistory scan σ.trace := by
    cases l with
    | act j reply =>
        have hne : j ≠ scan := fun heq => own reply (heq ▸ rfl)
        simp only [Machine.step]
        split
        · exact history_called_ne _ hne
        · rfl
    | spawn b => rfl
    | change e => exact history_changed _ _
  refine ⟨h.ready.same lifecycle jobs, hhistory ▸ h.selected, fun answer hwrote => ?_⟩
  rw [hhistory] at hwrote
  obtain ⟨hanswer, hparked⟩ := h.prepared answer hwrote
  exact ⟨hanswer, fun job hjob => hparked job (jobs ▸ hjob)⟩

theorem Scan.steps (h : Scan scan type id jobId task attempt staleBefore σ)
    (hi : σ.threads[scan]? = some p)
    (hp : Obeys (scanning n) p (workerHistory scan σ.trace) ok err) {more : List Step}
    (quiet : Undisturbed scan type id σ more) :
    Scan scan type id jobId task attempt staleBefore (more.foldl manager.step σ) := by
  induction more generalizing σ p with
  | nil => exact h
  | cons l more ih =>
      obtain ⟨hown, hrest⟩ := quiet
      obtain ⟨p', hi', hp'⟩ := manager.step_obeys (fun _ _ => trivial) hi hp l
      refine ih ?_ hi' hp' hrest
      by_cases hact : ∃ reply, l = .act scan reply
      · obtain ⟨reply, rfl⟩ := hact
        exact h.act hi hp reply
      · obtain ⟨hlifecycle, hjobs⟩ := hown.resolve_left hact
        obtain ⟨r, hr, hrj⟩ := h.ready.named
        exact h.other (fun reply heq => hact ⟨reply, heq⟩) hlifecycle (hjobs r jobId hr hrj)

theorem Store.prepare_keeps_job (s : Store) {j j' : UUID} {job : JobExecution} {limit : Time}
    (row : s.jobs.lookup j = some job)
    (kept : job.status = .success ∨
      (job.status = .running ∧ ∀ at_, job.claimedAt = some at_ → limit < at_) ∨
      Detached s.ledger j) :
    (s.prepareExecutionRetry j' limit).2.jobs.lookup j = some job := by
  rcases s.prepareExecutionRetry_cases j' limit with heq | ⟨job', hjob', hm, hcase⟩
  · rw [heq]
    exact row
  · rcases hcase with ⟨-, heq⟩ | ⟨hrun, ⟨at_, hat, hle⟩, heq⟩
    · rw [heq]
      exact row
    · have hne : j ≠ j' := by
        rintro rfl
        rw [row, Option.some.injEq] at hjob'
        subst hjob'
        rcases kept with hst | ⟨-, hfresh⟩ | ⟨b, k, hb, hk, hno⟩
        · rw [hst] at hrun
          cases hrun
        · exact absurd (hfresh at_ hat) (Int.not_lt.mpr hle)
        · have hlease : b = job.lease := by simpa [Store.ledger, row, eq_comm] using hb
          obtain ⟨r, hr, hrj, -⟩ := hm k (hlease ▸ hk)
          exact hno r hr hrj
      rw [heq]
      simpa [Store.modifyJob, Table.lookup_modify_ne, hne] using row

/-- The scan never touches a job that is settled, freshly claimed or replaced. -/
theorem scan_keeps_job (hi : σ.threads[scan]? = some p)
    (hp : Obeys (scanning n) p (workerHistory scan σ.trace) ok err) (reply : Reply) {j : UUID}
    {job : JobExecution} (row : σ.world.store.jobs.lookup j = some job)
    (kept : job.status = .success ∨
      (job.status = .running ∧ ∀ now at_, Read (workerHistory scan σ.trace) .now now →
        job.claimedAt = some at_ → now - n < at_) ∨ Detached σ.world.store.ledger j) :
    (manager.step σ (.act scan reply)).world.store.jobs.lookup j = some job := by
  cases p with
  | ret a => simpa [Machine.step, hi] using row
  | raise e => simpa [Machine.step, hi] using row
  | halt => simpa [Machine.step, hi] using row
  | call o k =>
      have hguard := hp.1
      simp only [Machine.step, hi, manager]
      cases o with
      | query q =>
          rw [World.perform_query]
          exact row
      | call c => exact row
      | transaction t =>
          cases t with
          | prepareExecutionRetry j' limit =>
              obtain ⟨now, hnow, rfl⟩ := hguard
              rcases σ.world.perform_prepare reply j' (now - n) with heq | heq
              · rw [heq]
                exact row
              · rw [heq]
                exact σ.world.store.prepare_keeps_job row (kept.imp_right
                  (Or.imp_left fun hfresh => ⟨hfresh.1, fun at_ => hfresh.2 now at_ hnow⟩))
          | _ => exact hguard.elim

end Run

section Completion
variable {scan : Nat} {σ : Manager}

theorem act_thread {β : Type} {o : Op β} {k : Except WorkerError β → Worker Unit}
    (hi : σ.threads[scan]? = some (.call o k)) (reply : Reply) :
    (manager.step σ (.act scan reply)).threads[scan]? =
      some (k (σ.world.perform reply o).1) := by
  have hlt : scan < σ.threads.length := (List.getElem?_eq_some_iff.mp hi).1
  simp [Machine.step, hi, manager, List.getElem?_set_self hlt]

def alone (scan m : Nat) : List Step := List.replicate m (.act scan (.flag true))

theorem foldEach_returns (ids : List UUID) (counts : Nat × Nat) (staleBefore : Time)
    (hi : σ.threads[scan]? = some (do
      let _ ← foldEach ids counts (Tasks.retryJob staleBefore))) :
    ∃ m, ((alone scan m).foldl manager.step σ).threads[scan]? = some (.ret ()) := by
  induction ids generalizing σ counts with
  | nil => exact ⟨0, hi⟩
  | cons jobId ids ih =>
      have hprepare := act_thread (o := .transaction (.prepareExecutionRetry jobId staleBefore)) hi
        (.flag true)
      cases htask : (σ.world.store.prepareExecutionRetry jobId staleBefore).1 with
      | none =>
          have hperform : (σ.world.perform (.flag true)
              (.transaction (.prepareExecutionRetry jobId staleBefore))).1 = .ok none :=
            congrArg Except.ok htask
          rw [hperform] at hprepare
          obtain ⟨m, hm⟩ := ih _ hprepare
          exact ⟨m + 1, hm⟩
      | some task =>
          have hperform : (σ.world.perform (.flag true)
              (.transaction (.prepareExecutionRetry jobId staleBefore))).1 = .ok (some task) :=
            congrArg Except.ok htask
          rw [hperform] at hprepare
          cases task with
          | registered step =>
              obtain ⟨m, hm⟩ := ih _ (act_thread (o := .call (.delay (.registered step) jobId))
                hprepare (.flag true))
              exact ⟨m + 2, hm⟩
          | unknown name =>
              obtain ⟨m, hm⟩ := ih _ hprepare
              exact ⟨m + 1, hm⟩

/-- A scan left to itself returns. -/
theorem scan_returns {n : Nat} (hi : σ.threads[scan]? = some (Body.retryJobExecutions n).program) :
    ∃ m, ((alone scan m).foldl manager.step σ).threads[scan]? = some (.ret ()) := by
  have hnow := act_thread (o := .query .now) hi (.flag true)
  have hids := act_thread (o := .query (.retryableJobIds (σ.world.store.now - n))) hnow (.flag true)
  obtain ⟨m, hm⟩ := foldEach_returns _ _ _ hids
  exact ⟨m + 2, hm⟩

theorem undisturbed_alone (type : ResourceType) (id : UUID) (m : Nat) :
    Undisturbed scan type id σ (alone scan m) := by
  induction m generalizing σ with
  | zero => trivial
  | succ m ih => exact ⟨.inl ⟨_, rfl⟩, ih⟩

end Completion

theorem Sound.ready {s : Store} (hs : Sound s) {type : ResourceType} {id : UUID} {r : Lifecycle}
    {staleBefore : Time} (row : s.lifecycle type id = some r)
    (recoverable : Recoverable s r staleBefore) :
    ∃ jobId job, r.jobId = some jobId ∧ s.jobs.lookup jobId = some job ∧
      job.taskName.isRegistered = true ∧
      Ready type id jobId job.taskName job.attempt staleBefore s := by
  have active : r.status ≠ .success := by
    rcases recoverable with h | h | ⟨h, -⟩ <;> simp [h]
  obtain ⟨jobId, job, hjob, hlookup, htype, hid, hstep, haction, hstatus, hflow⟩ :=
    hs.active_job row active
  refine ⟨jobId, job, hjob, hlookup, by simp [hflow.2, StepName.task, TaskName.isRegistered], job,
    hlookup, by simp [JobExecution.lease, htype, hid], fun key hkey => ?_, rfl, rfl, ?_⟩
  · have : key = (type, some id) := by simpa [JobExecution.lease, htype, hid, eq_comm] using hkey
    subst this
    exact ⟨r, by simpa [Store.ledger] using row, hjob, haction, hstep⟩
  · rw [isRetryable_iff, hstatus]
    refine recoverable.imp_right (Or.imp_right fun hrun => ⟨hrun.1, ?_⟩)
    obtain ⟨-, jobId', job', at_, hjob', hlookup', hat, hle⟩ := hrun
    rw [hjob, Option.some.injEq] at hjob'
    subst hjob'
    rw [hlookup, Option.some.injEq] at hlookup'
    subst hlookup'
    exact ⟨at_, hat, hle⟩

/-- A scan started in any reachable state recovers every resource that waits for
an attempt or whose attempt went stale, and leaves the other jobs alone. -/
theorem scanner_recovers (steps : List Step) (jobStaleAfterSeconds : Nat) :
    let scan := (run steps).threads.length
    let started := manager.step (run steps) (.spawn (.retryJobExecutions jobStaleAfterSeconds))
    let scanned := fun more =>
      run (steps ++ .spawn (.retryJobExecutions jobStaleAfterSeconds) :: more)
    -- The scan can always be run to its end.
    (∀ type id, ∃ more, Undisturbed scan type id started more ∧
      (scanned more).threads[scan]? = some (.ret ())) ∧
    -- It recovers the resource.
    (∀ type id r more, (run steps).world.store.lifecycle type id = some r →
      Undisturbed scan type id started more → (scanned more).threads[scan]? = some (.ret ()) →
      (∀ now, Read (workerHistory scan (scanned more).trace) .now now →
        Recoverable (run steps).world.store r (now - jobStaleAfterSeconds)) →
      ∃ jobId job now ids c, r.jobId = some jobId ∧
        (run steps).world.store.jobs.lookup jobId = some job ∧
        Read (workerHistory scan (scanned more).trace) .now now ∧
        Read (workerHistory scan (scanned more).trace)
          (.retryableJobIds (now - jobStaleAfterSeconds)) ids ∧ jobId ∈ ids ∧
        Wrote (workerHistory scan (scanned more).trace)
          (.prepareExecutionRetry jobId (now - jobStaleAfterSeconds)) (some job.taskName) ∧
        job.taskName.isRegistered = true ∧
        ((scanned more).world.store.claimExecution jobId job.taskName).1 = some c ∧
        c.attempt = job.attempt + 1) ∧
    -- It never changes a job that is settled, freshly claimed or replaced.
    ∀ more reply j job, (scanned more).world.store.jobs.lookup j = some job →
      (job.status = .success ∨
        (job.status = .running ∧ ∀ now at_,
          Read (workerHistory scan (scanned more).trace) .now now →
            job.claimedAt = some at_ → now - jobStaleAfterSeconds < at_) ∨
        ∃ type id, job.resourceType = some type ∧ job.resourceId = some id ∧
          ∀ r, (scanned more).world.store.lifecycle type id = some r → r.jobId ≠ some j) →
      (manager.step (scanned more) (.act scan reply)).world.store.jobs.lookup j = some job := by
  intro scan started scanned
  have happend : ∀ more, scanned more = more.foldl manager.step started := by
    intro more
    exact manager.run_append steps _
  have hthread : started.threads[scan]? =
      some (Body.retryJobExecutions jobStaleAfterSeconds).program := by
    simp [started, Machine.step, scan, manager]
  have hfresh : workerHistory scan started.trace = [] :=
    (Machine.run_disciplined manager_supports Sound.empty Body.program_keeps steps).fresh scan
      (Nat.le_refl _)
  have hobeys := hfresh ▸ scan_scanning jobStaleAfterSeconds
  have hscanning : ∀ more, ∃ p, (scanned more).threads[scan]? = some p ∧
      Obeys (scanning jobStaleAfterSeconds) p (workerHistory scan (scanned more).trace)
        (fun _ h => Scanned jobStaleAfterSeconds h) (fun _ _ => True) := by
    intro more
    rw [happend]
    exact manager.foldl_obeys (fun _ _ => trivial) hthread hobeys more
  refine ⟨?_, ?_, ?_⟩
  · intro type id
    obtain ⟨m, hm⟩ := scan_returns hthread
    exact ⟨alone scan m, undisturbed_alone type id m, (happend _).symm ▸ hm⟩
  · intro type id r more row quiet returned hrec
    obtain ⟨p, hp, hscanned⟩ := hscanning more
    rw [returned, Option.some.injEq] at hp
    subst hp
    obtain ⟨now, ids, hnow, hids, hall⟩ := hscanned
    obtain ⟨jobId, job, hjob, hlookup, hregistered, hready⟩ :=
      (run_reaches steps).sound.ready row (hrec now hnow)
    have hstart : Scan scan type id jobId job.taskName job.attempt (now - jobStaleAfterSeconds)
        started := by
      refine ⟨hready, fun _ hread => ?_, fun _ hwrote => ?_⟩
      · rw [Read, hfresh] at hread
        cases hread
      · rw [Wrote, hfresh] at hwrote
        cases hwrote
    have hend := (happend more).symm ▸ hstart.steps hthread hobeys quiet
    have hselected := hend.selected ids hids
    obtain ⟨answer, hwrote⟩ := hall jobId hselected
    obtain ⟨rfl, hparked⟩ := hend.prepared answer hwrote
    obtain ⟨c, hclaim, hattempt⟩ := hend.ready.claim hparked
    exact ⟨jobId, job, now, ids, c, hjob, hlookup, hnow, hids, hselected, hwrote, hregistered,
      hclaim, hattempt⟩
  · intro more reply j job row kept
    obtain ⟨p, hp, hscan⟩ := hscanning more
    refine scan_keeps_job hp hscan reply row (kept.imp_right (Or.imp_right fun hreplaced => ?_))
    obtain ⟨type, id, htype, hid, hno⟩ := hreplaced
    exact ⟨job.lease, (type, some id), by simp [Store.ledger, row],
      by simp [JobExecution.lease, htype, hid],
      fun r hr => hno r (by simpa [Store.ledger] using hr)⟩

end CoderManager
