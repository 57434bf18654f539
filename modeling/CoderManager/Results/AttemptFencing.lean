import CoderManager.Runs

/-!
# Attempt fencing

The claims handed out in a run are recorded in its trace. A claim that lost its
execution has lost it for good, and writes nothing from then on.
-/
namespace CoderManager
open Programs Leases

def claimOf : {β : Type} → Op β → Except WorkerError β → Option ExecutionClaim
  | _, .transaction (.claimExecution _ _), .ok claim => claim
  | _, _, _ => none

def claimed (e : Entry Op WorkerError World Change) : Option ExecutionClaim :=
  match e.what with
  | .called _ event => claimOf event.op event.result
  | .changed _ => none

def claims (t : Trace) : List ExecutionClaim := t.filterMap claimed

/-- A later attempt was claimed, the job is not running, it has moved to
another step, or its resource names another job. -/
def LostBy (t : Trace) (s : Store) (c : ExecutionClaim) : Prop :=
  (∃ c' ∈ claims t, c'.jobId = c.jobId ∧ c.attempt < c'.attempt) ∨
    (∀ job, s.jobs.lookup c.jobId = some job → job.status ≠ .running) ∨
    (∀ job, s.jobs.lookup c.jobId = some job → job.step ≠ c.step) ∨
    ∃ type id, c.resourceType = some type ∧ c.resourceId = some id ∧
      ∀ r, s.lifecycle type id = some r → r.jobId ≠ some c.jobId

/-- Every claim handed out is on record in the ledger, for the resource of its
job, and the claims of one job are numbered in order. -/
structure ClaimsInOrder (s : Store) (t : Trace) : Prop where
  issued : ∀ c ∈ claims t, Issued s.ledger c.token
  resource : ∀ c ∈ claims t, ∀ b, s.ledger.jobs c.jobId = some b →
    b.owner = c.resourceType.map fun type => (type, c.resourceId)
  increasing : (claims t).Pairwise fun newer older =>
    newer.jobId = older.jobId → older.attempt < newer.attempt

theorem ClaimsInOrder.steps {s s' : Store} {t : Trace} (h : ClaimsInOrder s t)
    (hs : Steps catalogue s.ledger s'.ledger) : ClaimsInOrder s' t where
  issued := fun c hc => (h.issued c hc).steps hs
  resource := by
    intro c hc b' hb'
    obtain ⟨b, hb, -, howner, -⟩ := hs.job_origin hb' (h.issued c hc).1
    exact howner.trans (h.resource c hc b hb)
  increasing := h.increasing

/-- A granted claim opens the next attempt of its job. -/
theorem Performed.claimed_row {w w' : World} {β : Type} {o : Op β} {answer : Except WorkerError β}
    (hp : Performed w o answer w') {c : ExecutionClaim} (hc : claimOf o answer = some c) :
    ∃ job, w.store.jobs.lookup c.jobId = some job ∧ c.step = job.step ∧
      c.attempt = job.attempt + 1 ∧ c.resourceType = job.resourceType ∧
      c.resourceId = job.resourceId ∧
      w'.store.jobs.lookup c.jobId = some { job with
        status := .running, attempt := job.attempt + 1, claimedAt := some w.store.now } := by
  cases hp with
  | answered | requested => simp [claimOf] at hc
  | @rolledBack t => cases t <;> simp [claimOf] at hc
  | committed commit =>
      cases commit with
      | @claimExecution jobId job row =>
          simp only [claimOf, Option.some.injEq] at hc
          subst hc
          exact ⟨job, row, rfl, rfl, rfl, rfl, by simp [Store.modifyJob, row]⟩
      | _ => simp [claimOf] at hc

theorem Moved.claimed_row {w w' : World} {t : Trace} {what : WhatHappened}
    (hm : Moved w t what w') {c : ExecutionClaim} (hc : claimed ⟨w, what⟩ = some c) :
    ∃ job, w.store.jobs.lookup c.jobId = some job ∧ c.step = job.step ∧
      c.attempt = job.attempt + 1 ∧ c.resourceType = job.resourceType ∧
      c.resourceId = job.resourceId ∧
      w'.store.jobs.lookup c.jobId = some { job with
        status := .running, attempt := job.attempt + 1, claimedAt := some w.store.now } := by
  cases hm with
  | called worker allowed performed => exact performed.claimed_row hc
  | changed => simp [claimed] at hc

theorem Run.claimsInOrder {w : World} {t : Trace} (h : Run w t) : ClaimsInOrder w.store t := by
  refine h.induction (motive := fun w t => ClaimsInOrder w.store t) ?start ?move
  case start => exact ⟨by simp [claims], by simp [claims], .nil⟩
  case move =>
      intro w t what w' hrun hm ih
      have hsteps := hm.steps hrun.sound
      have hold := ih.steps hsteps
      cases hc : claimed ⟨w, what⟩ with
      | none =>
          have heq : claims (⟨w, what⟩ :: t) = claims t := List.filterMap_cons_none hc
          exact ⟨heq ▸ hold.issued, heq ▸ hold.resource, heq ▸ hold.increasing⟩
      | some c =>
          have heq : claims (⟨w, what⟩ :: t) = c :: claims t := List.filterMap_cons_some hc
          obtain ⟨job, row, -, hattempt, htype, hid, row'⟩ := hm.claimed_row hc
          have hsound := hrun.sound.ledger.steps hsteps
          have hjob : w'.store.ledger.jobs c.jobId = some (JobExecution.lease { job with
              status := .running, attempt := job.attempt + 1, claimedAt := some w.store.now }) := by
            simp [Store.ledger, row']
          refine ⟨?_, ?_, ?_⟩
          · rw [heq]
            refine List.forall_mem_cons.mpr ⟨⟨hsound.known _ _ hjob, fun b hb => ?_⟩, hold.issued⟩
            cases hjob.symm.trans hb
            exact Nat.le_of_eq hattempt
          · rw [heq]
            refine List.forall_mem_cons.mpr ⟨fun b hb => ?_, hold.resource⟩
            cases hjob.symm.trans hb
            simp [JobExecution.lease, htype, hid]
          · rw [heq]
            refine List.pairwise_cons.mpr ⟨fun older holder hsame => ?_, hold.increasing⟩
            -- The older claim is no higher than the attempt this one follows.
            have hle := (ih.issued older holder).2 job.lease (by simp [Store.ledger,
              ExecutionClaim.token, ← hsame, row])
            exact hattempt ▸ Nat.lt_succ_of_le hle

theorem ClaimsInOrder.owned_unique {s : Store} {t : Trace} (h : ClaimsInOrder s t)
    {c c' : ExecutionClaim} (hc : c ∈ claims t) (hc' : c' ∈ claims t)
    (hsame : (c.resourceType ≠ none ∧ c.resourceType = c'.resourceType ∧
      c.resourceId = c'.resourceId) ∨ c.jobId = c'.jobId)
    (ho : Owned catalogue s.ledger c.token) (ho' : Owned catalogue s.ledger c'.token) : c = c' := by
  obtain ⟨b, hb, ht, hs, ha, -, hm⟩ := id ho
  obtain ⟨b', hb', ht', hs', ha', -, hm'⟩ := id ho'
  have howner := h.resource c hc b hb
  have howner' := h.resource c' hc' b' hb'
  have htoken : c.token = c'.token := by
    rcases hsame with ⟨htype, hsame, hid⟩ | hjob
    · obtain ⟨type, htype⟩ := Option.ne_none_iff_exists'.mp htype
      rw [htype] at hsame
      exact ho.unique ho' (k := (type, c.resourceId)) hb hb' (by simp [howner, htype])
        (by simp [howner', ← hsame, hid])
    · have heq : b = b' := by
        have : s.ledger.jobs c'.jobId = some b := hjob ▸ hb
        exact Option.some.inj (this.symm.trans hb')
      subst heq
      simp only [ExecutionClaim.token] at ht hs ha ht' hs' ha' ⊢
      simp [hjob, ← ht, ← hs, ← ha, ← ht', ← hs', ← ha']
  -- Different claims of one job are different attempts.
  have hdistinct : ∀ ⦃c₁⦄, c₁ ∈ claims t → ∀ ⦃c₂⦄, c₂ ∈ claims t → c₁.jobId = c₂.jobId →
      c₁.attempt = c₂.attempt → c₁ = c₂ :=
    List.Pairwise.forall_of_forall_of_flip (fun _ _ _ _ => rfl)
      (h.increasing.imp fun hlt hjob heq => absurd heq (hlt hjob).ne')
      (h.increasing.imp fun hlt hjob heq => absurd heq (hlt hjob.symm).ne)
  exact hdistinct hc hc' (congrArg Token.job htoken) (congrArg Token.attempt htoken)

namespace Store
variable {s : Store} {c : ExecutionClaim}

/-- A claim that does not own its execution writes nothing and reports no
success. -/
theorem unowned_writes_nothing (h : s.ownedExecution c = none) :
    (∀ task step mutate, s.advanceExecution c task step mutate = .ok (false, s)) ∧
      (∀ mutate delete, s.completeExecution c mutate delete = .ok (false, s)) ∧
      (∀ mutate, s.deferExecution c mutate = .ok (false, s)) ∧
      (∀ mutate, s.failExecution c mutate = .ok s) ∧ s.heartbeatExecution c = (false, s) := by
  simp [advanceExecution, completeExecution, deferExecution, failExecution, heartbeatExecution, h]

/-- A job its resource does not name is neither claimed nor retried. -/
theorem detached_refused {j : UUID} (h : Detached s.ledger j) :
    (∀ task, s.claimExecution j task = (none, s)) ∧
      (∀ staleBefore, s.prepareExecutionRetry j staleBefore = (none, s)) ∧
      ∀ c : ExecutionClaim, c.jobId = j → s.ownedExecution c = none := by
  obtain ⟨b, k, hb, hk, hno⟩ := h
  have unmatched : ∀ job, s.jobs.lookup j = some job → ¬Matches catalogue s.ledger j job.lease := by
    intro job hjob hm
    have heq : b = job.lease := by simpa [ledger, hjob, eq_comm] using hb
    obtain ⟨c, hc, hcj, -⟩ := hm k (heq ▸ hk)
    exact hno c hc hcj
  refine ⟨fun task => ?_, fun staleBefore => ?_, fun c hc => ?_⟩
  · rcases s.claimExecution_cases j task with h | ⟨job, hjob, -, -, hm, -⟩
    · exact h
    · exact absurd hm (unmatched job hjob)
  · rcases s.prepareExecutionRetry_cases j staleBefore with h | ⟨job, hjob, hm, -⟩
    · exact h
    · exact absurd hm (unmatched job hjob)
  · subst hc
    refine Option.eq_none_iff_forall_not_mem.mpr fun job ho => ?_
    obtain ⟨hjob, -, -, -, -, hm⟩ := ownedExecution_eq_some.mp ho
    exact unmatched job hjob hm

theorem ownedExecution_eq_none_of_lost {t : Trace} (ht : ClaimsInOrder s t) (hc : c ∈ claims t)
    (hl : LostBy t s c) : s.ownedExecution c = none := by
  refine Option.eq_none_iff_forall_not_mem.mpr fun job ho => ?_
  obtain ⟨hrow, -, hstep, hattempt, hrun, hm⟩ := ownedExecution_eq_some.mp ho
  have hjob : s.ledger.jobs c.jobId = some job.lease := by simp [ledger, hrow]
  rcases hl with ⟨c', hc', hsame, hlt⟩ | hidle | hmoved | ⟨type, id, htype, hid, hno⟩
  · have hle := (ht.issued c' hc').2 job.lease (by simpa [ExecutionClaim.token, hsame] using hjob)
    have : c'.attempt ≤ job.attempt := hle
    omega
  · exact hidle job hrow hrun
  · exact hmoved job hrow hstep
  · have howner := ht.resource c hc _ hjob
    obtain ⟨r, hr, hrj, -⟩ := hm (type, some id) (by simp [howner, htype, hid])
    exact hno r (by simpa [ledger] using hr) hrj

end Store

/-- Attempts are fenced in every run. -/
theorem attempts_are_fenced (steps : List Step) :
    -- The attempts of one job are handed out in order.
    ((claims (run steps).trace).Pairwise fun newer older =>
      newer.jobId = older.jobId → older.attempt < newer.attempt) ∧
    -- One claim on a resource, or of a job, owns its execution.
    (∀ c ∈ claims (run steps).trace, ∀ c' ∈ claims (run steps).trace,
      ((c.resourceType ≠ none ∧ c.resourceType = c'.resourceType ∧
        c.resourceId = c'.resourceId) ∨ c.jobId = c'.jobId) →
      ((run steps).world.store.ownedExecution c).isSome = true →
      ((run steps).world.store.ownedExecution c').isSome = true → c = c') ∧
    -- A lost claim stays lost, and writes nothing from then on.
    (∀ c ∈ claims (run steps).trace, LostBy (run steps).trace (run steps).world.store c →
      (run steps).world.store.ownedExecution c = none) ∧
    (∀ c ∈ claims (run steps).trace, (run steps).world.store.ownedExecution c = none →
      ∀ more, let s := (run (steps ++ more)).world.store
        s.ownedExecution c = none ∧
        (∀ task step mutate, s.advanceExecution c task step mutate = .ok (false, s)) ∧
        (∀ mutate delete, s.completeExecution c mutate delete = .ok (false, s)) ∧
        (∀ mutate, s.deferExecution c mutate = .ok (false, s)) ∧
        (∀ mutate, s.failExecution c mutate = .ok s) ∧ s.heartbeatExecution c = (false, s)) ∧
    -- A job its resource no longer names is left behind for good.
    (∀ j job type id, (run steps).world.store.jobs.lookup j = some job →
      job.resourceType = some type → job.resourceId = some id →
      (∀ r, (run steps).world.store.lifecycle type id = some r → r.jobId ≠ some j) →
      ∀ more, let s := (run (steps ++ more)).world.store
        (∃ job', s.jobs.lookup j = some job' ∧ job'.lease = job.lease) ∧
        (∀ r, s.lifecycle type id = some r → r.jobId ≠ some j) ∧
        (∀ task, s.claimExecution j task = (none, s)) ∧
        (∀ staleBefore, s.prepareExecutionRetry j staleBefore = (none, s)) ∧
        ∀ c : ExecutionClaim, c.jobId = j → s.ownedExecution c = none) := by
  have hrun := run_reaches steps
  have horder := hrun.claimsInOrder
  have hl := hrun.sound.ledger
  refine ⟨horder.increasing, ?_, ?_, ?_, ?_⟩
  · exact fun c hc c' hc' hsame ho ho' => horder.owned_unique hc hc' hsame
      (Store.ownedExecution_isSome_iff.mp ho) (Store.ownedExecution_isSome_iff.mp ho')
  · exact fun c hc hlost => Store.ownedExecution_eq_none_of_lost horder hc hlost
  · intro c hc hnone more s
    have hnone' : s.ownedExecution c = none := by
      rw [← Option.not_isSome_iff_eq_none, Store.ownedExecution_isSome_iff] at hnone ⊢
      exact fun ho => hnone (ho.of_steps hl (run_steps steps more) (horder.issued c hc))
    exact ⟨hnone', Store.unowned_writes_nothing hnone'⟩
  · intro j job type id hrow htype hid hno more s
    have hjob : (run steps).world.store.ledger.jobs j = some job.lease := by
      simp [Store.ledger, hrow]
    have hdetached : Detached (run steps).world.store.ledger j :=
      ⟨job.lease, (type, some id), hjob, by simp [JobExecution.lease, htype, hid],
        fun r hr => hno r (by simpa [Store.ledger] using hr)⟩
    obtain ⟨hdetached', hframe⟩ := hdetached.steps hl (run_steps steps more)
    refine ⟨?_, ?_, Store.detached_refused hdetached'⟩
    · rw [hjob] at hframe
      simpa [Store.ledger] using hframe
    · obtain ⟨b, k, hb, hk, hfree⟩ := hdetached'
      rw [hframe, hjob, Option.some.injEq] at hb
      subst hb
      have hkey : k = (type, some id) := by simpa [JobExecution.lease, htype, hid, eq_comm] using hk
      subst hkey
      exact fun r hr => hfree r (by simpa [Store.ledger] using hr)

end CoderManager
