import CoderManager.Refinement.Instances
import CoderManager.Results.JobConsistency

/-!
# The state observer

An observation is written only while the instance has the job, the action and
the status of the snapshot. The same job may have recorded the state meanwhile
and failed again: it has then entered a later step, and only then.
-/
namespace CoderManager
open Programs Tables Leases

def Mutation.recordsState : Mutation → Bool
  | .storeApplicationName _ _ | .markStopped => true
  | _ => false

def recorder : {β : Type} → Transaction β → β → Option ExecutionClaim
  | _, .advanceExecution c _ _ mutate, true => if mutate.recordsState then some c else none
  | _, .completeExecution c mutate _, true => if mutate.recordsState then some c else none
  | _, .storeStartedApplication c _, true => some c
  | _, _, _ => none

def RecordsUnder (jobId : UUID) (e : Entry Op WorkerError World Change) : Prop :=
  ∃ (worker : Nat) (β : Type) (tr : Transaction β) (a : β) (c : ExecutionClaim),
    e.what = .called worker ⟨.transaction tr, .ok a⟩ ∧ recorder tr a = some c ∧ c.jobId = jobId ∧
      (e.before.store.ownedExecution c).isSome = true

def Records (id : UUID) (e : Entry Op WorkerError World Change) : Prop :=
  ∃ (worker : Nat) (β : Type) (tr : Transaction β) (a : β) (c : ExecutionClaim) (job : JobExecution),
    e.what = .called worker ⟨.transaction tr, .ok a⟩ ∧ recorder tr a = some c ∧
      e.before.store.ownedExecution c = some job ∧ job.resourceType = some .instance ∧
      job.resourceId = some id

/-- One written observation: the snapshot was read in one world, the write met
another, and this is what happened between the two. -/
def Observes (t : Trace) (read write : World) (between : Trace) (snapshot : InstanceStateSnapshot)
    (observed : InstanceState) : Prop :=
  ∃ worker snapshots changed older,
    ⟨write, .called worker ⟨.transaction (.recordInstanceState snapshot observed), .ok changed⟩⟩ ::
      (between ++ ⟨read, .called worker ⟨.query .observedInstances, .ok snapshots⟩⟩ :: older) <:+ t ∧
    snapshot ∈ snapshots

def Store.instanceState (s : Store) (id : UUID) : Option InstanceState :=
  (s.instances.lookup id).map fun i => i.state

/-- A recorded state is not overwritten by an observation made before. -/
def ObserverKeepsNews (t : Trace) : Prop :=
  ∀ read write between snapshot observed, Observes t read write between snapshot observed →
    (∃ e ∈ between, Records snapshot.id e) →
    (write.store.recordInstanceState snapshot observed).2.instanceState snapshot.id =
      write.store.instanceState snapshot.id

def StepName.followsRecording : StepName → Bool
  | .instanceCreateStep03 | .instanceUpdateStep02 => true
  | _ => false

section Jobs
variable {w w' : World} {t : Trace} {what : WhatHappened} {j : UUID} {job job' : JobExecution}

theorem Committed.recorded {s s' : Store} {β : Type} {tr : Transaction β} {a : β}
    {h : WorkerHistory} {c : ExecutionClaim} (hc : Committed s tr a s')
    (hg : Discipline.transaction h tr) (records : recorder tr a = some c)
    (row' : s'.jobs.lookup c.jobId = some job') :
    job'.status = .success ∨ c.step ∈ JobName.instanceDelete.steps ∨
      (c.step.followsRecording = false ∧ job'.step.followsRecording = true) := by
  have written : ∀ {s₁ : Store} {job : JobExecution} {g : JobExecution → JobExecution}
      {f : Lifecycle → Lifecycle},
      ((s₁.modifyJob c.jobId g).modifyResource job f).jobs.lookup c.jobId = some job' →
      ∃ job, job' = g job := by
    intro s₁ job g f hrow
    rw [Store.jobs_modifyResource, Store.modifyJob, Table.lookup_modify_self] at hrow
    obtain ⟨job, -, hjob⟩ := Option.map_eq_some_iff.mp hrow
    exact ⟨job, hjob.symm⟩
  cases hc with
  | @advanceExecution claim task step mutate job s₁ owned hmut =>
      obtain ⟨-, -, hadvances⟩ := hg
      simp only [recorder, Option.ite_none_right_eq_some, Option.some.injEq] at records
      obtain ⟨hrecords, rfl⟩ := records
      obtain ⟨job₀, rfl⟩ := written row'
      cases hadvances with
      | createSchema | stopWorkspaces | removeWorkspaces | removeSchema => cases hrecords
      | createInstance hstep | updateInstance hstep | startInstance hstep =>
          exact .inr (.inr ⟨by rw [hstep]; rfl, rfl⟩)
      | removeInstance hstep => exact .inr (.inl (by rw [hstep]; decide))
  | @completeExecution claim mutate job s₁ owned hmut =>
      simp only [recorder, Option.ite_none_right_eq_some, Option.some.injEq] at records
      obtain ⟨-, rfl⟩ := records
      obtain ⟨job₀, rfl⟩ := written row'
      exact .inl rfl
  | @completeDeletion claim mutate job s₁ owned hmut =>
      obtain ⟨-, hconcludes⟩ := hg
      cases hconcludes
      cases records
  | storeStartedApplication =>
      obtain rfl := Option.some.inj records
      exact .inr (.inl (by rw [hg.2]; decide))
  | _ => cases records

theorem Moved.recorded_step (hrun : Run w t) (hm : Moved w t what w')
    (row : w.store.jobs.lookup j = some job) (row' : w'.store.jobs.lookup j = some job')
    (alive : job.name ≠ .instanceDelete) (active : job'.status ≠ .success) :
    (RecordsUnder j ⟨w, what⟩ →
      job.step.followsRecording = false ∧ job'.step.followsRecording = true) ∧
    (¬RecordsUnder j ⟨w, what⟩ → job'.step = job.step ∨
      (job.step.followsRecording = false ∧ job'.step.followsRecording = false)) := by
  have hstep : ∀ {c : ExecutionClaim}, c.jobId = j → (w.store.ownedExecution c).isSome = true →
      c.step = job.step ∧ c.step ∉ JobName.instanceDelete.steps := by
    rintro c rfl howned
    obtain ⟨job₀, owned⟩ := Option.isSome_iff_exists.mp howned
    obtain ⟨hrow, -, hstep, -⟩ := Store.ownedExecution_eq_some.mp owned
    obtain rfl : job = job₀ := Option.some.inj (row.symm.trans hrow)
    exact ⟨hstep.symm, fun hmem =>
      alive (JobName.eq_instanceDelete (Store.owned_mem_steps hrun.sound.ledger owned) hmem)⟩
  constructor
  · rintro ⟨worker, β, tr, a, c, rfl, hrecords, hj, howned⟩
    obtain ⟨hg, hc⟩ := hm.wrote
    obtain ⟨hsame, hother⟩ := hstep hj howned
    subst hj
    rcases hc.recorded hg hrecords row' with hst | hdel | hmoved
    · exact absurd hst active
    · exact absurd hdel hother
    · exact hsame ▸ hmoved
  · intro hnone
    have hknown : j < w.store.nextId := hrun.sound.ledger.known j job.lease (by simp [Store.ledger, row])
    obtain ⟨job₀, row₀, h⟩ := hm.job_step hknown row'
    obtain rfl : job = job₀ := Option.some.inj (row.symm.trans row₀)
    rcases h with h | ⟨worker, β, tr, a, rfl, hg, hadv⟩
    · exact .inl h
    · unfold AdvancesJob at hadv
      split at hadv
      · rename_i c task next mutate
        obtain ⟨hj, hnext, howned⟩ := hadv
        obtain ⟨hsame, hother⟩ := hstep hj howned
        have hquiet : mutate.recordsState = false := by
          by_contra h
          exact hnone ⟨worker, _, _, _, c, rfl, by simp [recorder, h], hj, howned⟩
        rw [← hsame, ← hnext]
        obtain ⟨-, -, hadvances⟩ := hg
        cases hadvances with
        | createSchema step | stopWorkspaces step => exact .inr ⟨by rw [step]; rfl, rfl⟩
        | createInstance | updateInstance | startInstance | removeInstance => cases hquiet
        | removeWorkspaces step | removeSchema step => exact absurd (by rw [step]; decide) hother
      · exact hadv.elim

end Jobs

/-- What became of a job since a snapshot: it was recorded under exactly when it
has entered a step by recording. -/
structure Since (job₀ job : JobExecution) (recorded : Prop) : Prop where
  name : job.name = job₀.name
  owner : job.lease.owner = job₀.lease.owner
  entered : recorded → job₀.step.followsRecording = false ∧ job.step.followsRecording = true
  stayed : ¬recorded → job.step = job₀.step ∨
    (job₀.step.followsRecording = false ∧ job.step.followsRecording = false)

theorem Since.recorded_iff {job₀ job : JobExecution} {recorded : Prop}
    (h : Since job₀ job recorded) :
    recorded ↔ job.step.followsRecording = true ∧ job.step ≠ job₀.step := by
  constructor
  · intro hr
    obtain ⟨hbefore, hafter⟩ := h.entered hr
    refine ⟨hafter, fun heq => ?_⟩
    rw [heq, hbefore] at hafter
    cases hafter
  · rintro ⟨hafter, hne⟩
    by_contra hr
    rcases h.stayed hr with heq | ⟨-, hno⟩
    · exact hne heq
    · rw [hno] at hafter
      cases hafter

section Between
variable {w : World} {t : Trace} {j : UUID} {job₀ job : JobExecution}

theorem Since.move {w' : World} {what : WhatHappened} {job' : JobExecution} {between : Trace}
    (h : Since job₀ job (∃ e ∈ between, RecordsUnder j e)) (hrun : Run w t) (hm : Moved w t what w')
    (alive : job₀.name ≠ .instanceDelete) (row : w.store.jobs.lookup j = some job)
    (row' : w'.store.jobs.lookup j = some job') (active : job'.status ≠ .success) :
    Since job₀ job' (∃ e ∈ ⟨w, what⟩ :: between, RecordsUnder j e) := by
  obtain ⟨hname, howner⟩ := hm.job_same hrun.sound row row'
  have halive : job.name ≠ .instanceDelete := h.name ▸ alive
  obtain ⟨hrecords, hquiet⟩ := hm.recorded_step hrun row row' halive active
  refine ⟨hname.trans h.name, howner.trans h.owner, ?_, ?_⟩
  · intro hr
    simp only [List.exists_mem_cons_iff] at hr
    by_cases hnow : RecordsUnder j ⟨w, what⟩
    · obtain ⟨hbefore, hafter⟩ := hrecords hnow
      refine ⟨?_, hafter⟩
      -- The step before was no such step, so nothing was recorded under the job earlier.
      have hnot : ¬∃ e ∈ between, RecordsUnder j e := by
        intro hold
        have hin := (h.entered hold).2
        rw [hbefore] at hin
        cases hin
      rcases h.stayed hnot with heq | ⟨hno, -⟩
      · exact heq ▸ hbefore
      · exact hno
    · obtain ⟨hno, hin⟩ := h.entered (hr.resolve_left hnow)
      refine ⟨hno, ?_⟩
      rcases hquiet hnow with heq | ⟨hout, -⟩
      · exact heq ▸ hin
      · rw [hin] at hout
        cases hout
  · intro hr
    simp only [List.exists_mem_cons_iff, not_or] at hr
    rcases h.stayed hr.2 with heq | ⟨hno, hout⟩
    · exact heq ▸ hquiet hr.1
    · rcases hquiet hr.1 with heq' | ⟨-, hout'⟩
      · exact .inr ⟨hno, heq' ▸ hout⟩
      · exact .inr ⟨hno, hout'⟩

theorem Run.since {between older : Trace} {read : World} {worker : Nat}
    {snapshots : List InstanceStateSnapshot} (h : Run w t)
    (ht : t = between ++ ⟨read, .called worker ⟨.query .observedInstances, .ok snapshots⟩⟩ :: older)
    (row₀ : read.store.jobs.lookup j = some job₀) (alive : job₀.name ≠ .instanceDelete)
    (row : w.store.jobs.lookup j = some job) (active : job.status ≠ .success) :
    Since job₀ job (∃ e ∈ between, RecordsUnder j e) := by
  have hsince : j < w.store.nextId ∧ ∀ job, w.store.jobs.lookup j = some job →
      job.status ≠ .success → Since job₀ job (∃ e ∈ between, RecordsUnder j e) := by
    clear row active
    revert between
    refine h.induction (motive := fun w t => ∀ {between},
      t = between ++ ⟨read, .called worker ⟨.query .observedInstances, .ok snapshots⟩⟩ :: older →
      j < w.store.nextId ∧ ∀ job, w.store.jobs.lookup j = some job → job.status ≠ .success →
        Since job₀ job (∃ e ∈ between, RecordsUnder j e)) ?start ?move
    case start =>
      intro between ht
      simp at ht
    case move =>
      intro w t what w' hrun hm ih between ht
      cases between with
      | nil =>
          obtain ⟨hentry, -⟩ := List.cons.inj ht
          obtain ⟨rfl, rfl⟩ := Entry.mk.inj hentry
          obtain ⟨-, rfl⟩ := hm.read
          have hknown := hrun.sound.ledger.known j job₀.lease (by simp [Store.ledger, row₀])
          refine ⟨hknown, fun job row _ => ?_⟩
          obtain rfl : job = job₀ := Option.some.inj (row.symm.trans row₀)
          refine ⟨rfl, rfl, ?_, fun _ => .inl rfl⟩
          rintro ⟨e, he, -⟩
          exact absurd he List.not_mem_nil
      | cons e between =>
          obtain ⟨hentry, htail⟩ := List.cons.inj ht
          subst hentry
          obtain ⟨hknown, hbefore⟩ := ih htail
          refine ⟨Nat.lt_of_lt_of_le hknown (hm.nextId_le hrun.sound), fun job' row' active => ?_⟩
          obtain ⟨job, row, -⟩ := hm.job_step hknown row'
          have hactive : job.status ≠ .success := fun h =>
            active (hm.job_settled hrun.sound row row' h)
          exact (hbefore job row hactive).move hrun hm alive row row' active
  exact hsince.2 job row active

end Between

theorem Run.instance_job {w : World} {t : Trace} (h : Run w t) :
    ∀ id i, w.store.instances.lookup id = some i → i.jobId ≠ none := by
  refine h.induction (motive := fun w _ => ∀ id i, w.store.instances.lookup id = some i →
    i.jobId ≠ none) ?start ?move
  case start =>
    intro id i row
    cases row
  case move =>
    intro w t what w' hrun hm ih id i' row'
    rcases hm.instance_cases hrun.sound row' with ⟨_, _, -, -, rfl⟩ | ⟨i, row, hworked | ⟨r, -, hr⟩⟩
    · exact Option.some_ne_none _
    · have hjob := ih id i row
      generalize i'.toLifecycle = l at hworked
      cases hworked with
      | same | claimed | released | advanced | settled => exact hjob
      | restaged => exact Option.some_ne_none _
    · generalize i'.toLifecycle = l at hr
      cases hr <;> exact Option.some_ne_none _

/-- While an instance keeps its job, what records its state is that job. -/
theorem Run.records_iff {read write : World} {between older : Trace} {what₀ : WhatHappened}
    {id j : UUID} {i i' : Instance} (h : Run write (between ++ ⟨read, what₀⟩ :: older))
    (row : read.store.instances.lookup id = some i) (row' : write.store.instances.lookup id = some i')
    (cur : i.jobId = some j) (cur' : i'.jobId = some j) {e : Entry Op WorkerError World Change}
    (he : e ∈ between) : Records id e ↔ RecordsUnder j e := by
  obtain ⟨b₁, b₂, rfl⟩ := List.append_of_mem he
  obtain ⟨v, what⟩ := e
  have hs : ⟨v, what⟩ :: (b₂ ++ ⟨read, what₀⟩ :: older) <:+
      b₁ ++ ⟨v, what⟩ :: b₂ ++ ⟨read, what₀⟩ :: older := ⟨b₁, by simp⟩
  obtain ⟨hv, -, hlater⟩ := h.entry hs
  obtain ⟨hread, -, hearlier⟩ := hv.entry (List.suffix_append b₂ _)
  -- The job was there when the snapshot was read, and works on this instance ever since.
  obtain ⟨b₀, hb₀, -⟩ := hread.sound.ledger.current (.instance, some id) i.toLifecycle j
    (by simp [Store.ledger, Store.lifecycle_instance row]) cur
  have hused : j ∈ v.store.ledger.used := hearlier.used_mono (hread.sound.ledger.known j b₀ hb₀)
  obtain ⟨b', hb', howner', -⟩ := h.sound.ledger.current (.instance, some id) i'.toLifecycle j
    (by simp [Store.ledger, Store.lifecycle_instance row']) cur'
  obtain ⟨b, hb, -, howner, -⟩ := hlater.job_origin hb' hused
  have hown : b.owner = some (.instance, some id) := howner.symm.trans howner'
  constructor
  · rintro ⟨worker, β, tr, a, c, job, hwhat, hrecords, owned, htype, hid⟩
    refine ⟨worker, β, tr, a, c, hwhat, hrecords, ?_, by simp [owned]⟩
    -- A job the instance had left would never come back.
    by_contra hne
    obtain ⟨hrow, -, -, -, -, hmatch⟩ := Store.ownedExecution_eq_some.mp owned
    have hjobOwner := JobExecution.lease_owner.mpr ⟨htype, hid⟩
    obtain ⟨d, hd, hcur, -⟩ := hmatch _ hjobOwner
    have hdetached : Detached v.store.ledger j := by
      refine ⟨b, _, hb, hown, fun d' hd' hj => hne ?_⟩
      obtain rfl : d = d' := Option.some.inj (hd.symm.trans hd')
      exact Option.some.inj (hcur.symm.trans hj)
    obtain ⟨⟨b₁, k, hb₁, hk, hnot⟩, -⟩ := hdetached.steps hv.sound.ledger hlater
    obtain rfl : b' = b₁ := Option.some.inj (hb'.symm.trans hb₁)
    obtain rfl : k = _ := Option.some.inj (hk.symm.trans howner')
    exact hnot i'.toLifecycle (by simp [Store.ledger, Store.lifecycle_instance row']) cur'
  · rintro ⟨worker, β, tr, a, c, hwhat, hrecords, rfl, howned⟩
    obtain ⟨job, owned⟩ := Option.isSome_iff_exists.mp howned
    obtain ⟨hrow, -⟩ := Store.ownedExecution_eq_some.mp owned
    change v.store.jobs.lookup c.jobId = some job at hrow
    obtain rfl : job.lease = b := by
      simpa [Store.ledger, hrow] using hb
    obtain ⟨htype, hid⟩ := JobExecution.lease_owner.mp hown
    exact ⟨worker, β, tr, a, c, job, hwhat, hrecords, owned, htype, hid⟩

theorem Run.settled_quiet {read write : World} {between older : Trace} {what₀ : WhatHappened}
    {j : UUID} {job : JobExecution} (h : Run write (between ++ ⟨read, what₀⟩ :: older))
    (row : read.store.jobs.lookup j = some job) (settled : job.status = .success)
    {e : Entry Op WorkerError World Change} (he : e ∈ between) : ¬RecordsUnder j e := by
  rintro ⟨worker, β, tr, a, c, hwhat, -, rfl, howned⟩
  obtain ⟨b₁, b₂, rfl⟩ := List.append_of_mem he
  have hs : e :: (b₂ ++ ⟨read, what₀⟩ :: older) <:+ b₁ ++ e :: b₂ ++ ⟨read, what₀⟩ :: older :=
    ⟨b₁, by simp⟩
  obtain ⟨hv, -⟩ := h.entry hs
  obtain ⟨hread, -, hearlier⟩ := hv.entry (List.suffix_append b₂ _)
  obtain ⟨job', owned⟩ := Option.isSome_iff_exists.mp howned
  obtain ⟨hrow, -, -, -, hrunning, -⟩ := Store.ownedExecution_eq_some.mp owned
  have hjob : read.store.ledger.jobs c.jobId = some job.lease := by simp [Store.ledger, row]
  have hjob' := congrArg (Option.map JobExecution.lease) hrow
  have hsame := hearlier.settled_job hjob settled (hread.sound.ledger.known _ _ hjob) hjob'
  have hstatus : job'.status = job.status := congrArg Job.status hsame
  rw [hrunning, settled] at hstatus
  cases hstatus

/-- The instance is at a step it entered by recording its state. -/
def Instance.followsRecording (i : Instance) : Prop :=
  i.step = some .instanceCreateStep03 ∨ i.step = some .instanceUpdateStep02

theorem Instance.followsRecording_iff {i : Instance} {step : StepName} (h : i.step = some step) :
    i.followsRecording ↔ step.followsRecording = true := by
  rw [followsRecording, h]
  cases step <;> simp [StepName.followsRecording]

/-- While its job, action and status are those of a snapshot, the state of an
instance was recorded exactly when its job has entered a later step. -/
theorem Run.recorded_iff {read write : World} {between older : Trace} {worker : Nat}
    {snapshots : List InstanceStateSnapshot} {id : UUID} {i i' : Instance}
    (h : Run write (between ++
      ⟨read, .called worker ⟨.query .observedInstances, .ok snapshots⟩⟩ :: older))
    (row : read.store.instances.lookup id = some i) (row' : write.store.instances.lookup id = some i')
    (job : i'.jobId = i.jobId) (status : i'.status = i.status) (alive : i.action ≠ .deleting) :
    (∃ e ∈ between, Records id e) ↔ i'.followsRecording ∧ i'.step ≠ i.step := by
  obtain ⟨hread, -⟩ := h.entry (List.suffix_append between _)
  obtain ⟨j, cur⟩ := Option.ne_none_iff_exists'.mp (hread.instance_job id i row)
  have cur' : i'.jobId = some j := job.trans cur
  have hunder : (∃ e ∈ between, Records id e) ↔ ∃ e ∈ between, RecordsUnder j e :=
    exists_congr fun e => and_congr_right fun he => h.records_iff row row' cur cur' he
  rw [hunder]
  by_cases hst : i.status = .success
  · -- A settled instance has a settled job and no step.
    obtain ⟨b, hb, -⟩ := hread.sound.ledger.current (.instance, some id) i.toLifecycle j
      (by simp [Store.ledger, Store.lifecycle_instance row]) cur
    obtain ⟨job₀, hrow₀, rfl⟩ : ∃ job₀, read.store.jobs.lookup j = some job₀ ∧ job₀.lease = b := by
      simpa [Store.ledger] using hb
    have hsettled : job₀.status = .success :=
      (hread.sound.current_status (Store.lifecycle_instance row) cur hrow₀).trans hst
    have hnone : i'.step = none := h.sound.ledger.settled (.instance, some id) i'.toLifecycle
      (by simp [Store.ledger, Store.lifecycle_instance row']) (status.trans hst)
    constructor
    · rintro ⟨e, he, hrecords⟩
      exact absurd hrecords (h.settled_quiet hrow₀ hsettled he)
    · rintro ⟨hfollows, -⟩
      rcases hfollows with hf | hf <;> rw [hnone] at hf <;> cases hf
  · obtain ⟨j₁, job₀, hj₁, hrow₀, -, -, hstep₀, haction₀, -⟩ :=
      hread.sound.active_job (Store.lifecycle_instance row) hst
    obtain ⟨j₂, job', hj₂, hrow', -, -, hstep', -, hstatus', -⟩ :=
      h.sound.active_job (Store.lifecycle_instance row') (fun hs => hst (status ▸ hs))
    obtain rfl : j = j₁ := Option.some.inj (cur.symm.trans hj₁)
    obtain rfl : j = j₂ := Option.some.inj (cur'.symm.trans hj₂)
    have halive : job₀.name ≠ .instanceDelete := by
      intro hname
      rw [hname] at haction₀
      exact alive (Option.some.inj haction₀).symm
    have hactive : job'.status ≠ .success := fun hs => hst (status ▸ hstatus'.symm.trans hs)
    rw [(h.since rfl hrow₀ halive hrow' hactive).recorded_iff,
      Instance.followsRecording_iff hstep', hstep', hstep₀, ne_eq, ne_eq, Option.some.injEq]

theorem Store.mem_observedInstances {s : Store} {snapshot : InstanceStateSnapshot}
    (h : snapshot ∈ s.observedInstances) : ∃ i, s.instances.lookup snapshot.id = some i ∧
      snapshot.jobId = i.jobId ∧ snapshot.action = i.action ∧ snapshot.status = i.status ∧
      i.status.inProgress = false ∧ i.action ≠ .deleting := by
  simp only [observedInstances, List.mem_map, List.mem_insertionSort] at h
  obtain ⟨⟨id, i⟩, hmem, rfl⟩ := h
  obtain ⟨row, hidle⟩ := Table.mem_select.mp hmem
  simp only [Bool.and_eq_true, Bool.not_eq_true', bne_iff_ne] at hidle
  exact ⟨i, row, rfl, rfl, rfl, hidle.1, hidle.2⟩

/-- An observation is written when the instance is still as the snapshot has it
and has another state. -/
theorem Store.recordInstanceState_state {s : Store} {snapshot : InstanceStateSnapshot}
    {observed : InstanceState} {i : Instance} (row : s.instances.lookup snapshot.id = some i) :
    (s.recordInstanceState snapshot observed).2.instanceState snapshot.id =
      s.instanceState snapshot.id ↔
    ¬(i.jobId = snapshot.jobId ∧ i.action = snapshot.action ∧ i.status = snapshot.status ∧
      i.status.inProgress = false ∧ i.action ≠ .deleting ∧ i.state ≠ observed) := by
  unfold recordInstanceState
  simp only [row]
  split
  · rename_i hfence
    refine iff_of_true rfl ?_
    rintro ⟨hjob, haction, hstatus, hidle, halive, hstate⟩
    rw [hidle] at hfence
    simp [hjob, haction, hstatus, haction ▸ halive, hstate] at hfence
  · rename_i hfence
    simp only [not_or, ne_eq, not_not] at hfence
    obtain ⟨hjob, haction, hstatus, hidle, halive, hstate⟩ := hfence
    refine iff_of_false ?_ fun h => h ⟨hjob, haction, hstatus, by simpa using hidle, halive, hstate⟩
    simp only [instanceState, Table.lookup_modify_self, row, Option.map_some, Option.some.injEq]
    exact fun h => hstate h.symm

/-- A written observation belongs to a run up to its write, and its snapshot to the
store it was read from. -/
theorem Observes.run {steps : List Step} {read write : World} {between : Trace}
    {snapshot : InstanceStateSnapshot} {observed : InstanceState}
    (h : Observes (run steps).trace read write between snapshot observed) :
    ∃ worker snapshots older, Run write (between ++
        ⟨read, .called worker ⟨.query .observedInstances, .ok snapshots⟩⟩ :: older) ∧
      snapshot ∈ read.store.observedInstances := by
  obtain ⟨worker, snapshots, changed, older, hs, hmem⟩ := h
  obtain ⟨hwrite, -⟩ := (run_reaches steps).entry hs
  obtain ⟨-, ⟨v, hread⟩, -⟩ := hwrite.entry (List.suffix_append between _)
  obtain rfl : read.store.observedInstances = snapshots := Except.ok.inj hread.read.1
  exact ⟨worker, _, older, hwrite, hmem⟩

/-- The observer keeps what was recorded since its snapshot in exactly the runs in
which no instance that an observation would change has since entered a step by
recording its state. -/
theorem observer_keeps_news_iff (steps : List Step) :
    ObserverKeepsNews (run steps).trace ↔
      ∀ read write between snapshot observed,
        Observes (run steps).trace read write between snapshot observed → ∀ i i',
        read.store.instances.lookup snapshot.id = some i →
        write.store.instances.lookup snapshot.id = some i' →
        i'.jobId = i.jobId → i'.action = i.action → i'.status = i.status → i'.state ≠ observed →
        i'.followsRecording → i'.step = i.step := by
  constructor
  · intro hkeeps read write between snapshot observed hobs i i' row row' hjob haction hstatus hstate
      hfollows
    obtain ⟨worker, snapshots, older, hwrite, hmem⟩ := hobs.run
    obtain ⟨i₀, row₀, hjob₀, haction₀, hstatus₀, hidle, halive⟩ := Store.mem_observedInstances hmem
    obtain rfl : i = i₀ := Option.some.inj (row.symm.trans row₀)
    by_contra hmoved
    have hrecorded := (hwrite.recorded_iff row row' hjob hstatus halive).mpr ⟨hfollows, hmoved⟩
    have hsame := hkeeps read write between snapshot observed hobs hrecorded
    exact (Store.recordInstanceState_state row').mp hsame ⟨hjob.trans hjob₀.symm,
      haction.trans haction₀.symm, hstatus.trans hstatus₀.symm, hstatus ▸ hidle, haction ▸ halive,
      hstate⟩
  · intro hsteps read write between snapshot observed hobs hrecorded
    obtain ⟨worker, snapshots, older, hwrite, hmem⟩ := hobs.run
    obtain ⟨i, row, hjob₀, haction₀, hstatus₀, hidle, halive⟩ := Store.mem_observedInstances hmem
    cases row' : write.store.instances.lookup snapshot.id with
    | none => simp [Store.recordInstanceState, row']
    | some i' =>
        rw [Store.recordInstanceState_state row']
        rintro ⟨hjob, haction, hstatus, -, -, hstate⟩
        have hjob' := hjob.trans hjob₀
        have hstatus' := hstatus.trans hstatus₀
        obtain ⟨hfollows, hmoved⟩ := (hwrite.recorded_iff row row' hjob' hstatus' halive).mp hrecorded
        exact hmoved (hsteps read write between snapshot observed hobs i i' row row' hjob'
          (haction.trans haction₀) hstatus' hstate hfollows)

def pendingObservation : Worker Unit → Option (InstanceStateSnapshot × InstanceState)
  | .call (.transaction (.recordInstanceState snapshot observed)) _ => some (snapshot, observed)
  | _ => none

theorem pendingObservation_eq_some {p : Worker Unit} {snapshot : InstanceStateSnapshot}
    {observed : InstanceState} (h : pendingObservation p = some (snapshot, observed)) :
    ∃ k, p = .call (.transaction (.recordInstanceState snapshot observed)) k := by
  unfold pendingObservation at h
  split at h
  · obtain ⟨rfl, rfl⟩ := Prod.mk.inj (Option.some.inj h)
    exact ⟨_, rfl⟩
  · cases h

/-- The creation of instance 1 fails at its first step, and worker 1 starts to
observe. -/
def failedCreation : List Step :=
  [requesting (.createDatabase ⟨"pool", 5, "host", 5432, "database", "user"⟩ "secret"),
    requesting (.createInstance "APP" drawnSlug), delivering .instanceCreateStep01 2] ++
  answering 0 [.done, .fail .databaseError, .done] ++ [.spawn .checkInstanceStates]

/-- Worker 1 finds no Application; the creation is retried, records the started
Application and fails at its last step. -/
def retriedCreation : List Step :=
  answering 1 [.flag false] ++ [delivering .instanceCreateStep01 2] ++
  answering 2 [.done, .done, .done, .done, .flag true] ++ [delivering .instanceCreateStep02 2] ++
  answering 3 [.done, .done, .done, .done, .outcome .completed "app", .done, .flag true] ++
  [delivering .instanceCreateStep03 2] ++ answering 4 [.done, .fail .databaseError, .done]

/-- The observation made before the retry overwrites what the retry recorded. -/
theorem observation_overwrites_retry : ¬∀ steps, ObserverKeepsNews (run steps).trace := by
  intro h
  have hread : (run failedCreation).threads[1]? = some (Body.program .checkInstanceStates) := rfl
  have hfirst := run_act hread .done
  obtain ⟨between, hbetween⟩ := run_trace_suffix (failedCreation ++ [.act 1 .done]) retriedCreation
  rw [hfirst] at hbetween
  have hwrite : (run (failedCreation ++ [.act 1 .done] ++ retriedCreation)).threads[1]?.bind
      pendingObservation =
      some (⟨1, drawnSlug.text, none, some 2, .creating, .error⟩, .stopped) := by decide +kernel
  obtain ⟨p, hp, hpending⟩ := Option.bind_eq_some_iff.mp hwrite
  obtain ⟨k, rfl⟩ := pendingObservation_eq_some hpending
  have hlast := run_act hp .done
  rw [← hbetween] at hlast
  have hobs : Observes (run (failedCreation ++ [.act 1 .done] ++ retriedCreation ++
      [.act 1 .done])).trace (run failedCreation).world
      (run (failedCreation ++ [.act 1 .done] ++ retriedCreation)).world between
      ⟨1, drawnSlug.text, none, some 2, .creating, .error⟩ .stopped :=
    ⟨1, (run failedCreation).world.store.observedInstances, _, (run failedCreation).trace,
      ⟨[], hlast.symm⟩, by decide +kernel⟩
  obtain ⟨i, row, hi⟩ : ∃ i, (run failedCreation).world.store.instances.lookup 1 = some i ∧
      (i.jobId, i.action, i.status, i.step) =
        (some 2, .creating, .error, some .instanceCreateStep01) :=
    Option.map_eq_some_iff.mp (by decide +kernel)
  obtain ⟨i', row', hi'⟩ : ∃ i',
      (run (failedCreation ++ [.act 1 .done] ++ retriedCreation)).world.store.instances.lookup 1 =
        some i' ∧ (i'.jobId, i'.action, i'.status, i'.step, i'.state) =
          (some 2, .creating, .error, some .instanceCreateStep03, .started) :=
    Option.map_eq_some_iff.mp (by decide +kernel)
  simp only [Prod.mk.injEq] at hi hi'
  obtain ⟨hjob, haction, hstatus, hstep⟩ := hi
  obtain ⟨hjob', haction', hstatus', hstep', hstate'⟩ := hi'
  obtain ⟨worker, snapshots, older, hwrite, -⟩ := hobs.run
  have hrecorded := (hwrite.recorded_iff row row' (hjob'.trans hjob.symm)
    (hstatus'.trans hstatus.symm) (by rw [haction]; decide)).mpr
    ⟨.inl hstep', by rw [hstep', hstep]; decide⟩
  have hsame := h _ _ _ _ _ _ hobs hrecorded
  refine (Store.recordInstanceState_state row').mp hsame
    ⟨hjob', haction', hstatus', ?_, ?_, ?_⟩
  · rw [hstatus']
    rfl
  · rw [haction']
    decide
  · rw [hstate']
    decide

end CoderManager
