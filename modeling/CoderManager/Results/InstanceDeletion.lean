import CoderManager.Refinement.Deletions
import CoderManager.Refinement.Instances
import CoderManager.Results.AppliedRevisions

/-!
# The order of an instance deletion

The schema of an instance is dropped after its Application is gone, the
Application is removed after its workspaces are, and the rows of the instance
go last. An attempt at a step was claimed after the step before it was done.
-/
namespace CoderManager
open Programs Tables Leases

/-- An attempt that owned the job at one step moved it on to the next: `before` held of what
had happened when it was claimed, and `did` of what it did itself. -/
inductive Advanced (t : Trace) (jobId : UUID) (step next : StepName) (before : Trace → Prop)
    (did : WorkerHistory → Prop) : Prop
  | intro {worker : Nat} {c : ExecutionClaim} {mutate : Mutation} {v u : World}
      {rest earlier : Trace}
      (advance : ⟨v, .called worker
        ⟨.transaction (.advanceExecution c next.task next mutate), .ok true⟩⟩ :: rest <:+ t)
      (owned : (v.store.ownedExecution c).isSome = true)
      (held : Holds (workerHistory worker rest) c)
      (claim : ⟨u, .called worker (claimEvent c)⟩ :: earlier <:+ rest)
      (job : c.jobId = jobId) (current : c.step = step)
      (ready : before earlier) (done : did (workerHistory worker rest)) :
      Advanced t jobId step next before did

theorem Advanced.later {t t' : Trace} {jobId : UUID} {step next : StepName}
    {before : Trace → Prop} {did : WorkerHistory → Prop}
    (h : Advanced t jobId step next before did) (hs : t <:+ t') :
    Advanced t' jobId step next before did := by
  obtain ⟨advance, owned, held, claim, job, current, ready, done⟩ := h
  exact ⟨advance.trans hs, owned, held, claim, job, current, ready, done⟩

/-- The job was filed for an instance whose creation had failed before it had a password: it
starts with the second step. -/
def FiledDirectly (t : Trace) (jobId instanceId : UUID) : Prop :=
  ∃ v rest i job, ⟨v, .changed (.request (.requestInstanceDeletion instanceId))⟩ :: rest <:+ t ∧
    v.store.instances.lookup instanceId = some i ∧ i.action = .creating ∧ i.status = .error ∧
    i.passwordEnc = none ∧ jobId = v.store.nextId ∧
    (v.react (.request (.requestInstanceDeletion instanceId))).store.jobs.lookup jobId = some job ∧
    job.name = .instanceDelete ∧ job.resourceId = some instanceId ∧ job.step = .instanceDeleteStep02

/-- Every workspace of the instance was deleted under the job, or it never had any. -/
def WorkspacesRemoved (t : Trace) (jobId instanceId : UUID) : Prop :=
  Advanced t jobId .instanceDeleteStep01 .instanceDeleteStep02 (fun _ => True) (fun h =>
    ∃ password heartbeat fuel,
      Returned h (Coder.deleteAllWorkspaces instanceId password heartbeat fuel)) ∨
  FiledDirectly t jobId instanceId

/-- And then the Application of the instance was reported gone. -/
def ApplicationRemoved (t : Trace) (jobId instanceId : UUID) : Prop :=
  Advanced t jobId .instanceDeleteStep02 .instanceDeleteStep03
    (fun earlier => WorkspacesRemoved earlier jobId instanceId) (fun h => ∃ slug attachedName,
      Called h (.deleteInstanceApplication instanceId slug attachedName) .completed)

def SchemaRemoved (t : Trace) (jobId instanceId : UUID) : Prop :=
  Advanced t jobId .instanceDeleteStep03 .instanceDeleteStep04
    (fun earlier => ApplicationRemoved earlier jobId instanceId) (fun h => ∃ target name,
      Read h (.managedDatabaseTarget instanceId) (some (target, name)) ∧ Called h (.dropSchema target) ())

/-- What has happened before a deletion is at a step. -/
def Reached (t : Trace) (jobId instanceId : UUID) : StepName → Prop
  | .instanceDeleteStep02 => WorkspacesRemoved t jobId instanceId
  | .instanceDeleteStep03 => ApplicationRemoved t jobId instanceId
  | .instanceDeleteStep04 => SchemaRemoved t jobId instanceId
  | _ => True

theorem Reached.later {t t' : Trace} {jobId instanceId : UUID} {step : StepName}
    (h : Reached t jobId instanceId step) (hs : t <:+ t') : Reached t' jobId instanceId step := by
  cases step with
  | instanceDeleteStep02 =>
      rcases h with h | ⟨v, rest, i, job, hentry, hfiled⟩
      · exact .inl (h.later hs)
      · exact .inr ⟨v, rest, i, job, hentry.trans hs, hfiled⟩
  | instanceDeleteStep03 => exact Advanced.later h hs
  | instanceDeleteStep04 => exact Advanced.later h hs
  | _ => exact trivial

theorem Holds.claim_entry {worker : Nat} {t : Trace} {c : ExecutionClaim}
    (h : Holds (workerHistory worker t) c) :
    ∃ u earlier, ⟨u, .called worker (claimEvent c)⟩ :: earlier <:+ t := by
  have hmem : claimEvent c ∈ workerHistory worker t := h.subset (List.mem_singleton_self _)
  obtain ⟨u, hu⟩ := mem_history.mp hmem
  obtain ⟨later, earlier, ht⟩ := List.append_of_mem hu
  exact ⟨u, earlier, ht ▸ List.suffix_append _ _⟩

/-- Deletions that are at a step, and attempts that were claimed there, come after the steps
before it. -/
structure DeletionsInOrder (s : Store) (t : Trace) : Prop where
  jobs : ∀ j job, s.jobs.lookup j = some job → job.name = .instanceDelete →
    ∃ id, job.lease.owner = some (.instance, some id) ∧ Reached t j id job.step
  claims : ∀ worker c u earlier, ⟨u, .called worker (claimEvent c)⟩ :: earlier <:+ t →
    c.step ∈ JobName.instanceDelete.steps →
    ∃ id, c.resourceType = some .instance ∧ c.resourceId = some id ∧ Reached earlier c.jobId id c.step

section Order
variable {w w' : World} {t : Trace} {what : WhatHappened}

theorem Run.target_found (h : Run w t) {worker : Nat} {c : ExecutionClaim} {id : UUID}
    (held : Holds (workerHistory worker t) c) (htype : c.resourceType = some .instance)
    (resource : c.resourceId = some id) (owned : (w.store.ownedExecution c).isSome = true) :
    ¬Read (workerHistory worker t) (.managedDatabaseTarget id) none := by
  intro hread
  obtain ⟨v, rest, hentry, hheld⟩ := held.before hread (fun heq => query_ne_transaction heq)
  obtain ⟨hrun, ⟨v', hm⟩, hsteps⟩ := h.entry hentry
  have howned : (v.store.ownedExecution c).isSome = true := by
    rw [Store.ownedExecution_isSome_iff] at owned ⊢
    exact owned.of_steps hrun.sound.ledger hsteps (hrun.claimsInOrder.issued c hheld.mem_claims)
  obtain ⟨-, r, -, -, hrow, -⟩ := hrun.owned_running hheld htype resource howned
  obtain ⟨i, hi, -⟩ := Option.map_eq_some_iff.mp hrow
  obtain ⟨a, d, ha, hd⟩ := hrun.hosted id i hi
  obtain ⟨hanswer, -⟩ := hm.read
  simp only [Store.answer, Store.managedDatabaseTarget, ha, hd, bind_eq_ok, pure_eq_ok]
    at hanswer
  obtain ⟨password, -, hanswer⟩ := hanswer
  cases hanswer

theorem Run.advanced (h : Run w t) (hm : Moved w t what w') (ih : DeletionsInOrder w.store t)
    {worker : Nat} {c : ExecutionClaim} {task : TaskName} {next : StepName} {mutate : Mutation}
    (hwhat : what = .called worker ⟨.transaction (.advanceExecution c task next mutate), .ok true⟩)
    (owned : (w.store.ownedExecution c).isSome = true) {id : UUID}
    (htype : c.resourceType = some .instance) (resource : c.resourceId = some id) :
    Reached (⟨w, what⟩ :: t) c.jobId id next := by
  subst hwhat
  obtain ⟨⟨held, rfl, hadv⟩, -⟩ := hm.wrote
  obtain ⟨u, earlier, hclaim⟩ := held.claim_entry
  have hready : c.step ∈ JobName.instanceDelete.steps → Reached earlier c.jobId id c.step := by
    intro hstep
    obtain ⟨id', -, hid', hreached⟩ := ih.claims worker c u earlier hclaim hstep
    obtain rfl : id' = id := Option.some.inj (hid'.symm.trans resource)
    exact hreached
  have hadvanced : ∀ {step : StepName} {before : Trace → Prop} {did : WorkerHistory → Prop},
      c.step = step → before earlier → did (workerHistory worker t) →
      Advanced (⟨w, .called worker ⟨.transaction (.advanceExecution c next.task next mutate),
        .ok true⟩⟩ :: t) c.jobId step next before did := fun hstep hbefore hdid =>
    .intro List.suffix_rfl owned held hclaim rfl hstep hbefore hdid
  cases hadv with
  | removeWorkspaces step resource' emptied =>
      obtain rfl := Option.some.inj (resource'.symm.trans resource)
      exact .inl (hadvanced step trivial ⟨_, _, _, emptied⟩)
  | removeInstance step resource' removed =>
      obtain rfl := Option.some.inj (resource'.symm.trans resource)
      have hbefore := hready (step ▸ by decide)
      rw [step] at hbefore
      exact hadvanced step hbefore ⟨_, _, removed⟩
  | removeSchema step resource' dropped =>
      obtain rfl := Option.some.inj (resource'.symm.trans resource)
      have hbefore := hready (step ▸ by decide)
      rw [step] at hbefore
      have htarget := dropped.resolve_left (h.target_found held htype resource owned)
      exact hadvanced step hbefore htarget
  | createSchema | createInstance | updateInstance | startInstance | stopWorkspaces => exact trivial

theorem DeletionsInOrder.move (ih : DeletionsInOrder w.store t) (h : Run w t)
    (hm : Moved w t what w') : DeletionsInOrder w'.store (⟨w, what⟩ :: t) where
  jobs := by
    intro j job' row' hname
    have kept : ∀ job, w.store.jobs.lookup j = some job → job'.step = job.step →
        ∃ id, job'.lease.owner = some (.instance, some id) ∧
          Reached (⟨w, what⟩ :: t) j id job'.step := by
      intro job row hstep
      obtain ⟨hsame, howner⟩ := hm.job_same h.sound row row'
      obtain ⟨id, hid, hreached⟩ := ih.jobs j job row (hsame.symm.trans hname)
      exact ⟨id, howner.trans hid, hstep ▸ hreached.later (List.suffix_cons _ _)⟩
    by_cases hknown : j < w.store.nextId
    · obtain ⟨job, row, hstep | ⟨worker, β, tr, a, rfl, hg, hadv⟩⟩ := hm.job_step hknown row'
      · exact kept job row hstep
      · unfold AdvancesJob at hadv
        split at hadv
        · rename_i c task next mutate
          obtain ⟨rfl, rfl, howned⟩ := hadv
          obtain ⟨hsame, howner⟩ := hm.job_same h.sound row row'
          obtain ⟨id, hid, -⟩ := ih.jobs c.jobId job row (hsame.symm.trans hname)
          obtain ⟨job₀, howned₀⟩ := Option.isSome_iff_exists.mp howned
          obtain ⟨hrow₀, -⟩ := Store.ownedExecution_eq_some.mp howned₀
          obtain rfl : job = job₀ := Option.some.inj (row.symm.trans hrow₀)
          obtain ⟨htype, hresource⟩ := JobExecution.lease_owner.mp hid
          obtain ⟨hctype, hcid⟩ := h.owned_resource hg.1 howned₀ htype
          exact ⟨id, howner.trans hid, h.advanced hm ih rfl howned hctype (hcid.trans hresource)⟩
        · cases hadv
    · rcases hm.store_cases with heq | ⟨now, heq⟩ | ⟨r, rfl, hr⟩ | ⟨worker, β, tr, a, rfl, hg, hc⟩
      · exact kept job' (heq ▸ row') rfl
      · exact kept job' (by simpa [heq] using row') rfl
      · rcases hr.job_cases row' with row | hfiled
        · exact kept job' row rfl
        · obtain ⟨id, i, rfl, rfl, hi, htype, hid, hstart⟩ := hfiled.deletion hname
          refine ⟨id, JobExecution.lease_owner.mpr ⟨htype, hid⟩, ?_⟩
          rcases hstart with ⟨hstep, hcreating, herror, hpassword⟩ | hstep
          · rw [hstep]
            exact .inr ⟨w, t, i, job', List.suffix_rfl, hi, hcreating, herror, hpassword, rfl,
              hm.reacted ▸ row', hname, hid, hstep⟩
          · rw [hstep]
            exact trivial
      · rcases hc.jobs_old row' with ⟨job, row, -⟩ | ⟨-, hupdate⟩
        · exact absurd (h.sound.ledger.known j job.lease (by simp [Store.ledger, row])) hknown
        · cases hupdate.symm.trans hname
  claims := by
    intro worker c u earlier hentry hstep
    rcases List.suffix_cons_iff.mp hentry with heq | hold
    · obtain ⟨hhead, rfl⟩ := List.cons.inj heq
      obtain ⟨rfl, rfl⟩ := Entry.mk.inj hhead
      obtain ⟨job, row, hcstep, -, htype, hid, -⟩ := hm.claimed_row (c := c) rfl
      obtain ⟨hstage, -⟩ := h.sound.ledger.stage c.jobId job.lease (by simp [Store.ledger, row])
      have hdeletes : job.step ∈ JobName.instanceDelete.steps := hcstep ▸ hstep
      have hname := JobName.eq_instanceDelete hstage hdeletes
      obtain ⟨id, howner, hreached⟩ := ih.jobs c.jobId job row hname
      obtain ⟨htype', hid'⟩ := JobExecution.lease_owner.mp howner
      exact ⟨id, htype.trans htype', hid.trans hid', hcstep ▸ hreached⟩
    · exact ih.claims worker c u earlier hold hstep

theorem Run.deletionsInOrder (h : Run w t) : DeletionsInOrder w.store t := by
  refine h.induction (motive := fun w t => DeletionsInOrder w.store t) ?start ?move
  case start =>
    refine ⟨fun j job row => ?_, fun worker c u earlier hentry => ?_⟩
    · cases row
    · simp at hentry
  case move => exact fun w t what w' hrun hm ih => ih.move hrun hm

end Order

/-- The moves that take a row of an instance away. -/
inductive RemovesRow (w : World) (t : Trace) (s' : Store) (instanceId : UUID) :
    WhatHappened → InstanceRow → Prop
  /-- The last step of its deletion, after the schema was dropped: every row goes. -/
  | configuration {worker : Nat} {c : ExecutionClaim} {u : World} {earlier : Trace}
      {row : InstanceRow} (owned : (w.store.ownedExecution c).isSome = true)
      (held : Holds (workerHistory worker t) c)
      (claim : ⟨u, .called worker (claimEvent c)⟩ :: earlier <:+ t)
      (current : c.step = .instanceDeleteStep04) (resource : c.resourceId = some instanceId)
      (ordered : SchemaRemoved earlier c.jobId instanceId)
      (all : ∀ row, s'.hasRow instanceId row = false) :
      RemovesRow w t s' instanceId
        (.called worker ⟨.transaction (.removeLocalConfiguration c), .ok true⟩) row
  /-- The end of an update, which takes the members it deletes and their workspaces. -/
  | member {worker : Nat} {c : ExecutionClaim} {memberIds : List UUID} {name : String}
      {answer : Store.UpdateResult} {row : InstanceRow} {memberId : UUID} {m : Member}
      (owned : (w.store.ownedExecution c).isSome = true) (claimed : memberId ∈ memberIds)
      (member : w.store.members.lookup memberId = some m) (deleting : m.action = .deleting)
      (gone : row = .member memberId ∨ ∃ id v, row = .workspace id ∧
        w.store.workspaces.lookup id = some v ∧ v.memberId = memberId) :
      RemovesRow w t s' instanceId
        (.called worker ⟨.transaction (.finalizeUpdate c memberIds name), .ok answer⟩) row
  /-- The deletion of an assignment, which takes its workspaces. -/
  | assignment {worker : Nat} {c : ExecutionClaim} {snapshot : TemplateRemovalSnapshot} {id : UUID}
      {v : Workspace} (owned : (w.store.ownedExecution c).isSome = true)
      (workspace : w.store.workspaces.lookup id = some v) (template : v.templateId = snapshot.templateId)
      (place : v.instanceId = snapshot.instanceId) :
      RemovesRow w t s' instanceId
        (.called worker ⟨.transaction (.removeLocalAssignment c snapshot), .ok true⟩) (.workspace id)
  /-- The deletion of one workspace. -/
  | workspace {worker : Nat} {c : ExecutionClaim} {mutate : Mutation} {id : UUID}
      (owned : (w.store.ownedExecution c).isSome = true) (current : c.step = .workspaceDeleteStep01)
      (resource : c.resourceId = some id) :
      RemovesRow w t s' instanceId
        (.called worker ⟨.transaction (.completeExecution c mutate true), .ok true⟩) (.workspace id)

section Removal
variable {w w' : World} {t : Trace} {what : WhatHappened} {instanceId : UUID} {row : InstanceRow}

theorem RowsKept.not_gone {s s' : Store} (h : RowsKept s s') (there : s.hasRow instanceId row = true)
    (gone : s'.hasRow instanceId row = false) : False := by
  cases (h.hasRow there).symm.trans gone

theorem Store.finalized_row {s s' : Store} {c : ExecutionClaim} {job : JobExecution} {id : UUID}
    {memberIds : List UUID} {name : String} (later : RowsKept ((Store.finalizeMembers { s with
      instances := s.instances.modify id fun i => { i with argocdApplicationName := some name } }
      id memberIds).settleExecution c job) s') (there : s.hasRow instanceId row = true)
    (gone : s'.hasRow instanceId row = false) :
    ∃ memberId m, memberId ∈ memberIds ∧ s.members.lookup memberId = some m ∧
      m.action = .deleting ∧ (row = .member memberId ∨
        ∃ wid v, row = .workspace wid ∧ s.workspaces.lookup wid = some v ∧ v.memberId = memberId) := by
  have hrenamed : RowsKept s { s with
      instances := s.instances.modify id fun i => { i with argocdApplicationName := some name } } :=
    .rewriteInstance _ _
  have hfinal : (Store.finalizeMembers { s with
      instances := s.instances.modify id fun i => { i with argocdApplicationName := some name } }
      id memberIds).hasRow instanceId row = false := by
    by_contra hkept
    exact ((RowsKept.put _ _ _ _).trans later).not_gone (by simpa using hkept) gone
  have hremoved := hasRow_finalizeMembers (hrenamed.hasRow there) hfinal
  exact hremoved

/-- A row of an instance goes by one of these moves. -/
theorem Run.removes_row (h : Run w t) (hm : Moved w t what w')
    (there : w.store.hasRow instanceId row = true) (gone : w'.store.hasRow instanceId row = false) :
    RemovesRow w t w'.store instanceId what row := by
  rcases hm.store_cases with heq | ⟨now, heq⟩ | ⟨r, rfl, hr⟩ | ⟨worker, β, tr, a, rfl, hg, hc⟩
  · exact ((heq ▸ RowsKept.refl w.store : RowsKept w.store w'.store).not_gone there gone).elim
  · have hkept : RowsKept w.store w'.store := heq ▸ { RowsKept.refl w.store with members := .refl _ _ }
    exact (hkept.not_gone there gone).elim
  · exact ((hr.rowsKept h.sound.grounded).not_gone there gone).elim
  · by_cases other : tr.removesRows = false
    · exact ((hc.rowsKept other).not_gone there gone).elim
    · generalize w'.store = s' at hc gone
      cases hc with
      | completeStale | finalizeStale | removeStale | removeAssignmentStale =>
          exact ((RowsKept.refl _).not_gone there gone).elim
      | @completeDeletion c mutate job s₁ owned mutated =>
          have hstep : c.step = .workspaceDeleteStep01 := by
            obtain ⟨-, hconcl⟩ := hg
            cases hconcl
            assumption
          have hthere := (mutated.rowsKept.trans (.modifyJob c.jobId fun job =>
            { job with status := .success, claimedAt := none })).hasRow there
          unfold Store.deleteResource at gone
          split at gone
          · rename_i type id htype hid
            have hresource := Store.owned_resourceType h.sound.ledger owned htype
            rw [hstep] at hresource
            obtain rfl : type = .workspace := (Option.some.inj hresource).symm
            cases row with
            | workspace wid =>
                obtain ⟨v, hv, hown⟩ := Store.hasRow_workspace.mp hthere
                obtain rfl : wid = id := by
                  by_contra hne
                  rw [← Bool.not_eq_true, Store.hasRow_workspace] at gone
                  exact gone ⟨v, Table.lookup_erase_some.mpr ⟨hne, hv⟩, hown⟩
                exact .workspace (by simp [owned]) hstep
                  ((h.owned_resource hg.1 owned htype).2.trans hid)
            | _ => cases hthere.symm.trans gone
          · cases hthere.symm.trans gone
      | finalizeUpdate owned _ final =>
          subst final
          obtain ⟨memberId, m, hclaimed, hm, hdeleting, hrow⟩ :=
            Store.finalized_row (.refl _) there gone
          exact .member (by simp [owned]) hclaimed hm hdeleting hrow
      | finalizeAgain owned _ final =>
          subst final
          obtain ⟨memberId, m, hclaimed, hm, hdeleting, hrow⟩ :=
            Store.finalized_row (.stageJob _ _ _ _ _) there gone
          exact .member (by simp [owned]) hclaimed hm hdeleting hrow
      | @removeLocalConfiguration c job id i owned hrow =>
          obtain ⟨htype, hid, -⟩ := Store.ownedInstance_eq_some.mp hrow
          have hresource := (h.owned_resource hg.1 owned htype).2.trans hid
          have hgone := gone
          rw [Store.hasRow_removeInstance, Bool.and_eq_false_iff] at hgone
          obtain rfl : instanceId = id := by
            rcases hgone with hgone | hgone
            · exact ((RowsKept.modifyJob _ _).not_gone there hgone).elim
            · simpa using hgone
          obtain ⟨u, earlier, hclaim⟩ := hg.1.claim_entry
          obtain ⟨id', -, hid', hordered⟩ :=
            h.deletionsInOrder.claims worker c u earlier hclaim (hg.2 ▸ by decide)
          obtain rfl : id' = instanceId := Option.some.inj (hid'.symm.trans hresource)
          rw [hg.2] at hordered
          exact .configuration (by simp [owned]) hg.1 hclaim hg.2 hresource hordered fun row =>
            by simp [Store.hasRow_removeInstance]
      | @removeLocalAssignment c snapshot job id owned =>
          cases row with
          | workspace wid =>
              obtain ⟨v, hv, hown⟩ := Store.hasRow_workspace.mp there
              by_cases hpair : v.templateId = snapshot.templateId ∧ v.instanceId = snapshot.instanceId
              · exact .assignment (by simp [owned]) hv hpair.1 hpair.2
              · rw [← Bool.not_eq_true, Store.hasRow_workspace] at gone
                exact (gone ⟨v, Table.lookup_deleteWhere_some.mpr ⟨hv, by simpa using hpair⟩, hown⟩).elim
          | _ => cases there.symm.trans gone
      | _ => exact absurd rfl other

end Removal
def Transaction.fencedBy (c : ExecutionClaim) : {β : Type} → Transaction β → Prop
  | _, .heartbeatExecution c' | _, .advanceExecution c' _ _ _ | _, .deferExecution c' _
  | _, .failExecution c' _ | _, .storeStartedApplication c' _ | _, .removeLocalConfiguration c' =>
      c' = c
  | _, _ => False

def fencedRule (_ : WorkerHistory) (c : ExecutionClaim) : {β : Type} → Op β → Prop
  | _, .transaction t => t.fencedBy c
  | _, _ => True

abbrev deletes (step : StepName) : Prop := step ∈ JobName.instanceDelete.steps

section Fenced
variable {h : WorkerHistory} {c : ExecutionClaim}

theorem fenced_query {β : Type} (hc : Holds h c) (q : Query β) :
    Keeps (attempts deletes fencedRule) (query q) h := .perform (attempts_guard hc trivial)

theorem fenced_request {β : Type} (hc : Holds h c) (k : Call β) :
    Keeps (attempts deletes fencedRule) (request k) h := .perform (attempts_guard hc trivial)

theorem fenced_transact {β : Type} (hc : Holds h c) {t : Transaction β} (own : t.fencedBy c) :
    Keeps (attempts deletes fencedRule) (transact t) h := .perform (attempts_guard hc own)

theorem fenced_advanceTo (hc : Holds h c) (step : StepName) (mutate : Mutation) :
    Keeps (attempts deletes fencedRule) (advanceTo c step mutate) h := by
  refine .bind (fenced_transact hc rfl) fun committed h₁ hs₁ => .ite (fun _ => ?_) fun _ => .pure _
  refine .bind (.ite (fun _ => ?_) fun _ => .pure _) fun _ _ _ => .pure _
  exact .tryCatch (fenced_request (hc.later hs₁) _) fun _ _ _ => .pure _

theorem fenced_defer (hc : Holds h c) (mutate : Mutation) :
    Keeps (attempts deletes fencedRule) (defer c mutate) h :=
  .bind (fenced_transact hc rfl) fun _ _ _ => .pure _

theorem fenced_permits (hc : Holds h c) (lost : WorkerError) :
    Permits (attempts deletes fencedRule) h (heartbeatOwned c lost) := by
  refine .always (fun h' hs β k _ => attempts_guard (hc.later hs) trivial) fun h' hs => ?_
  refine .bind (fenced_transact (hc.later hs) rfl) fun current _ _ => ?_
  cases current with
  | false => exact .throw _
  | true => exact .pure ()

theorem fenced_reconcile (hc : Holds h c) (instanceId : UUID) (slug : String)
    (attachedName : Option String) (members : List (String × MemberRole)) :
    Keeps (attempts deletes fencedRule) (reconcile instanceId slug attachedName members) h := by
  refine .bind (.bind (fenced_query hc _) fun target h₁ hs₁ => ?_) fun _ h₂ hs₂ =>
    fenced_request (hc.later hs₂) _
  cases target with
  | none => exact .throw _
  | some target => exact .bind (fenced_query (hc.later hs₁) _) fun _ _ _ => .pure _

theorem fenced_password (hc : Holds h c) (instanceId : UUID) :
    Keeps (attempts deletes fencedRule) (requiredAdminPassword instanceId) h := by
  refine .bind (fenced_query hc _) fun credentials _ _ => ?_
  cases credentials with
  | none => exact .throw _
  | some credentials => exact .pure _

theorem fenced_liftExcept {α : Type} (x : Except WorkerError α) :
    Keeps (attempts deletes fencedRule) (liftExcept x) h := by
  cases x with
  | error e => exact .throw e
  | ok a => exact .pure a

theorem removeWorkspaces_fenced (fuel : Nat) :
    Keeps (attempts deletes fencedRule) (Tasks.removeWorkspaces fuel c) [claimEvent c] := by
  refine .bind (fenced_query Holds.start _) fun snapshot h₁ hs₁ => ?_
  refine .bind (fenced_liftExcept _) fun instanceId h₂ hs₂ => ?_
  have hc₂ : Holds h₂ c := (Holds.start.later hs₁).later hs₂
  refine .bind (fenced_password hc₂ _) fun credentials h₃ hs₃ => ?_
  obtain ⟨url, password⟩ := credentials
  have hc₃ := hc₂.later hs₃
  refine .bind (fenced_request hc₃ _) fun there h₄ hs₄ => ?_
  have hc₄ := hc₃.later hs₄
  extract_lets restore
  have finish : ∀ restored h', h₄ <:+ h' →
      Keeps (attempts deletes fencedRule) (restore restored) h' := by
    intro restored h' hs'
    cases restored with
    | none => exact fenced_defer (hc₄.later hs') _
    | some restoredName =>
        refine .bind (fenced_transact (hc₄.later hs') rfl) fun stored h₅ hs₅ =>
          .ite (fun _ => ?_) fun _ => .pure _
        have hc₅ := (hc₄.later hs').later hs₅
        exact .bind (Coder.deleteAllWorkspaces_keeps (fenced_permits hc₅ _) _ _) fun _ h₆ hs₆ =>
          fenced_advanceTo (hc₅.later hs₆) _ _
  refine .ite (fun _ => ?_) fun _ => ?_
  · exact .bind (.pure _) finish
  · refine .bind (fenced_reconcile hc₄ _ _ _ _) fun reconciliation h₅ hs₅ => ?_
    cases reconciliation.status with
    | deferred => exact .bind (.pure _) fun restored h₆ hs₆ => finish restored h₆ (hs₅.trans hs₆)
    | completed => exact .bind (.pure _) fun restored h₆ hs₆ => finish restored h₆ (hs₅.trans hs₆)

theorem removeInstance_fenced :
    Keeps (attempts deletes fencedRule) (Tasks.removeInstance c) [claimEvent c] := by
  refine .bind (fenced_query Holds.start _) fun snapshot h₁ hs₁ => ?_
  refine .bind (fenced_liftExcept _) fun instanceId h₂ hs₂ => ?_
  have hc₂ : Holds h₂ c := (Holds.start.later hs₁).later hs₂
  refine .bind (fenced_request hc₂ _) fun outcome h₃ hs₃ => ?_
  cases outcome with
  | deferred => exact fenced_defer (hc₂.later hs₃) _
  | completed => exact fenced_advanceTo (hc₂.later hs₃) _ _

theorem removeSchema_fenced :
    Keeps (attempts deletes fencedRule) (Tasks.removeSchema c) [claimEvent c] := by
  refine .bind (fenced_liftExcept _) fun instanceId h₁ hs₁ => ?_
  have hc₁ : Holds h₁ c := Holds.start.later hs₁
  refine .bind (fenced_query hc₁ _) fun target h₂ hs₂ => ?_
  cases target with
  | none => exact fenced_advanceTo (hc₁.later hs₂) _ _
  | some target =>
      exact .bind (fenced_request (hc₁.later hs₂) _) fun _ h₃ hs₃ =>
        fenced_advanceTo ((hc₁.later hs₂).later hs₃) _ _

theorem deletion_fenced (protectedUsernames : List String) (fuel : Nat) (step : StepName)
    (hstep : deletes step) :
    Attempt deletes fencedRule (Body.operation protectedUsernames fuel step c) c := by
  refine .of_keeps ?_ fun _ => rfl
  cases step with
  | instanceDeleteStep01 => exact removeWorkspaces_fenced fuel
  | instanceDeleteStep02 => exact removeInstance_fenced
  | instanceDeleteStep03 => exact removeSchema_fenced
  | instanceDeleteStep04 => exact .bind (fenced_transact Holds.start rfl) fun _ _ _ => .pure _
  | _ => exact absurd hstep (by decide)

end Fenced

/-- A transaction of a deletion whose lease is lost commits nothing. -/
theorem Committed.fenced {s s' : Store} {β : Type} {t : Transaction β} {a : β} {c : ExecutionClaim}
    (hc : Committed s t a s') (fenced : t.fencedBy c) (lost : s.ownedExecution c = none) : s' = s := by
  cases hc with
  | heartbeatStale | advanceStale | deferStale | failStale | startedStale | removeStale => rfl
  | heartbeatExecution owned | advanceExecution owned | deferExecution owned | failExecution owned
  | storeStartedApplication owned | removeLocalConfiguration owned =>
      cases fenced
      cases lost.symm.trans owned
  | _ => exact fenced.elim

def Transaction.fails (c : ExecutionClaim) : {β : Type} → Transaction β → Prop
  | _, .failExecution c' _ => c' = c
  | _, _ => False

theorem Committed.failed {s s' : Store} {c : ExecutionClaim} {job : JobExecution} {β : Type}
    {t : Transaction β} {a : β} (hc : Committed s t a s') (fails : t.fails c)
    (owned : s.ownedExecution c = some job) :
    s'.jobs.lookup c.jobId = some { job with status := .error, claimedAt := none } := by
  cases hc with
  | failStale lost =>
      cases fails
      cases lost.symm.trans owned
  | failExecution owned' mutated =>
      cases fails
      obtain rfl := Option.some.inj (owned'.symm.trans owned)
      obtain ⟨hrow, -⟩ := Store.ownedExecution_eq_some.mp owned
      have hjobs := mutated.jobs_eq
      simp only [Store.releaseExecution, Store.jobs_modifyResource, Store.modifyJob, hjobs,
        Table.lookup_modify_self, hrow, Option.map_some]
  | _ => exact fails.elim

theorem run_begins (steps : List Step) {v : World} {rest : Trace} {worker : Nat}
    {event : WorkerEvent} (hs : ⟨v, .called worker event⟩ :: rest <:+ (run steps).trace) :
    ∃ b : Body, Begins b.program (event :: workerHistory worker rest).reverse := by
  have bodies : ∀ b : Body, Keeps ⟨Discipline.answers, fun h o =>
      ∃ b' : Body, ∀ r, Begins b'.program (h.reverse ++ [⟨o, r⟩])⟩ b.program [] := fun b =>
    (Keeps.issues (P := discipline) b.program).weaken (fun _ _ answered => answered)
      fun _ _ _ issued => ⟨b, issued⟩
  obtain ⟨b, hb⟩ := @run_guarded (fun h o => ∃ b' : Body, ∀ r, Begins b'.program (h.reverse ++ [⟨o, r⟩]))
    bodies steps _ _ hs _ _ rfl
  exact ⟨b, by simpa using hb event.result⟩

theorem Body.begins_claimed {b : Body} {c : ExecutionClaim} {later : WorkerHistory}
    (h : Begins b.program (claimEvent c :: later)) : ∃ step protectedUsernames fuel,
      b = .deliver (.registered step) c.jobId protectedUsernames fuel ∧ step.task = c.taskName ∧
      Begins (do
        let _ ← tryCatch (operation protectedUsernames fuel step c) fun error => do
          transact (.failExecution c .none)
          throw error) later := by
  cases b with
  | deliver task jobId protectedUsernames fuel =>
      cases task with
      | registered step =>
          obtain ⟨r, hevent, hlater⟩ := h
          simp only [claimEvent, Event.mk.injEq, heq_eq_eq, Op.transaction.injEq,
            Transaction.claimExecution.injEq, true_and] at hevent
          obtain ⟨⟨rfl, htask⟩, rfl⟩ := hevent
          exact ⟨step, protectedUsernames, fuel, rfl, htask.symm, hlater⟩
      | unknown name => exact h.elim
  | retryJobExecutions jobStaleAfterSeconds =>
      obtain ⟨r, hevent, -⟩ := h
      exact absurd hevent.symm query_ne_transaction
  | checkInstanceStates =>
      obtain ⟨r, hevent, -⟩ := h
      exact absurd hevent.symm query_ne_transaction

theorem Run.claim_task {w : World} {t : Trace} (h : Run w t) {worker : Nat} {c : ExecutionClaim}
    (held : Holds (workerHistory worker t) c) : c.step.task = c.taskName := by
  obtain ⟨u, earlier, hclaim⟩ := held.claim_entry
  obtain ⟨hrun, ⟨u', hm⟩, -⟩ := h.entry hclaim
  obtain ⟨-, hc⟩ := hm.wrote
  exact (hc.answers hrun.sound.ledger).2.2

theorem begins_failing {p : Worker TaskStatus} {c : ExecutionClaim} {ops : WorkerHistory}
    {event : WorkerEvent} {error : WorkerError} (raised : Ends p ops (some (.error error)))
    (started : Begins (do
      let _ ← tryCatch p fun error => do
        transact (.failExecution c .none)
        throw error : Worker Unit) (ops ++ [event])) :
    ∃ r, event = ⟨.transaction (.failExecution c .none), r⟩ := by
  have failing : Begins (tryCatch p fun error => do
      transact (.failExecution c .none)
      throw error) (ops ++ [event]) → ∃ r, event = ⟨.transaction (.failExecution c .none), r⟩ := by
    intro hbegun
    obtain ⟨r, hevent, -⟩ := begins_tryCatch raised hbegun
    exact ⟨r, hevent⟩
  rcases begins_bind started with hbegun | ⟨first, later, a, hsplit, hfirst, hlater⟩
  · exact failing hbegun
  · cases later with
    | nil => exact failing (hsplit.trans (List.append_nil first) ▸ hfirst.begins)
    | cons => exact hlater.elim

theorem removal_ne_claimEvent {c c' : ExecutionClaim} :
    (⟨.transaction (.removeLocalConfiguration c), .ok true⟩ : WorkerEvent) ≠ claimEvent c' := by
  intro h
  cases congrArg (fun e : WorkerEvent => claimOf e.op e.result) h

theorem not_removed_of_raised {protectedUsernames : List String} {fuel : Nat} {c : ExecutionClaim}
    {ops : WorkerHistory} {error : WorkerError} (current : c.step = .instanceDeleteStep04)
    (raised : Ends (Body.operation protectedUsernames fuel c.step c) ops (some (.error error))) :
    ¬Wrote ops (.removeLocalConfiguration c) true := by
  rw [current] at raised
  intro hwrote
  rcases ends_bind raised with ⟨first, later, removed, -, -, hlater⟩ | ⟨e, hends, -⟩ | ⟨hends, -⟩
  · cases (ends_pure.mp hlater).2
  · obtain ⟨r, rfl, hr⟩ := ends_perform.mp hends
    cases Option.some.inj hr
    simp [Wrote] at hwrote
  · obtain ⟨r, -, hr⟩ := ends_perform.mp hends
    cases hr

/-- What one move may do to an instance that is deleted, after what is on record. -/
structure DeletesInOrder (w : World) (t : Trace) (what : WhatHappened) (w' : World) : Prop where
  /-- A schema is dropped after the Application of its instance was gone. -/
  drops : ∀ worker target result, what = .called worker ⟨.call (.dropSchema target), result⟩ →
    ∃ c instanceId name u earlier, Holds (workerHistory worker t) c ∧
      c.step = .instanceDeleteStep03 ∧ c.resourceId = some instanceId ∧
      Read (workerHistory worker t) (.managedDatabaseTarget instanceId) (some (target, name)) ∧
      ⟨u, .called worker (claimEvent c)⟩ :: earlier <:+ t ∧ ApplicationRemoved earlier c.jobId instanceId
  /-- A row of an instance goes by one of four moves. -/
  removes : ∀ instanceId row, w.store.hasRow instanceId row = true →
    w'.store.hasRow instanceId row = false → RemovesRow w t w'.store instanceId what row
  /-- An attempt whose operation raised goes on to fail its execution, with every row in place. -/
  raises : ∀ worker event c, what = .called worker event → Holds (workerHistory worker t) c →
    deletes c.step → ∃ protectedUsernames fuel,
      Begins (Body.deliver (.registered c.step) c.jobId protectedUsernames fuel).program
        (event :: workerHistory worker t).reverse ∧
      ∀ ops error, workerHistory worker t = ops.reverse ++ [claimEvent c] →
        Ends (Body.operation protectedUsernames fuel c.step c) ops (some (.error error)) →
        (∃ r, event = ⟨.transaction (.failExecution c .none), r⟩) ∧
          ¬Wrote (workerHistory worker t) (.removeLocalConfiguration c) true
  /-- An owned execution that fails keeps the rows, and leaves its job in error at its step. -/
  fails : ∀ worker c mutate job,
    what = .called worker ⟨.transaction (.failExecution c mutate), .ok ()⟩ → deletes c.step →
    w.store.ownedExecution c = some job →
    (∀ instanceId row, w.store.hasRow instanceId row = true →
      w'.store.hasRow instanceId row = true) ∧ job.step = c.step ∧
    w'.store.jobs.lookup c.jobId = some { job with status := .error, claimedAt := none }
  /-- An attempt that lost its claim changes nothing. -/
  loses : ∀ worker event c, what = .called worker event → Holds (workerHistory worker t) c →
    deletes c.step → w.store.ownedExecution c = none → w'.store = w.store

section Moves
variable {steps : List Step} {what : WhatHappened} {w' : World}

theorem run_raises {l : Step} (recorded : (run (steps ++ [l])).trace =
      ⟨(run steps).world, what⟩ :: (run steps).trace)
    {worker : Nat} {event : WorkerEvent} {c : ExecutionClaim} (hwhat : what = .called worker event)
    (held : Holds (workerHistory worker (run steps).trace) c) :
    ∃ protectedUsernames fuel,
      Begins (Body.deliver (.registered c.step) c.jobId protectedUsernames fuel).program
        (event :: workerHistory worker (run steps).trace).reverse ∧
      ∀ ops error, workerHistory worker (run steps).trace = ops.reverse ++ [claimEvent c] →
        Ends (Body.operation protectedUsernames fuel c.step c) ops (some (.error error)) →
        (∃ r, event = ⟨.transaction (.failExecution c .none), r⟩) ∧
          ¬Wrote (workerHistory worker (run steps).trace) (.removeLocalConfiguration c) true := by
  subst hwhat
  obtain ⟨b, hb⟩ := run_begins (steps ++ [l]) ⟨[], recorded.symm⟩
  obtain ⟨later, hlater⟩ := id held
  have hbegun : Begins b.program (claimEvent c :: (later.reverse ++ [event])) := by
    rw [← hlater] at hb
    simpa using hb
  obtain ⟨step, protectedUsernames, fuel, rfl, htask, hrest⟩ := Body.begins_claimed hbegun
  obtain rfl : c.step = step :=
    TaskName.registered.inj (((run_reaches steps).claim_task held).trans htask.symm)
  refine ⟨protectedUsernames, fuel, hb, fun ops error hops raised => ?_⟩
  have hsame : later.reverse = ops := by
    have heq := List.append_cancel_right (hlater.trans hops)
    rw [heq, List.reverse_reverse]
  rw [hsame] at hrest
  refine ⟨begins_failing raised hrest, fun hwrote => ?_⟩
  obtain ⟨v, rest, hentry, -⟩ := held.before hwrote removal_ne_claimEvent
  obtain ⟨-, ⟨v', hm⟩, -⟩ := (run_reaches steps).entry hentry
  have hmem : Wrote ops (.removeLocalConfiguration c) true := by
    rw [Wrote, hops, List.mem_append, List.mem_reverse, List.mem_singleton] at hwrote
    exact hwrote.resolve_right removal_ne_claimEvent
  exact not_removed_of_raised hm.wrote.1.2 raised hmem

/-- An attempt that lost its claim changes nothing. -/
theorem run_loses {l : Step} (recorded : (run (steps ++ [l])).trace =
      ⟨(run steps).world, what⟩ :: (run steps).trace)
    (hm : Moved (run steps).world (run steps).trace what w')
    {worker : Nat} {event : WorkerEvent} {c : ExecutionClaim} (hwhat : what = .called worker event)
    (held : Holds (workerHistory worker (run steps).trace) c) (step : deletes c.step)
    (lost : (run steps).world.store.ownedExecution c = none) :
    w'.store = (run steps).world.store := by
  have hfenced := run_attempts deletes fencedRule
    (fun protectedUsernames fuel step c _ hstep => deletion_fenced protectedUsernames fuel step hstep)
    (steps ++ [l]) ⟨[], recorded.symm⟩ hwhat held step
  subst hwhat
  cases hm with
  | called _ _ performed =>
      cases performed with
      | answered | rolledBack | requested => rfl
      | committed commit => exact commit.fenced hfenced lost

end Moves

/-- Instances are deleted in order in every run. -/
theorem instances_are_deleted_in_order (steps : List Step) (l : Step) :
    ((run (steps ++ [l])).world = (run steps).world ∧
      (run (steps ++ [l])).trace = (run steps).trace) ∨
    ∃ what, Labels what l ∧
      (run (steps ++ [l])).trace = ⟨(run steps).world, what⟩ :: (run steps).trace ∧
      DeletesInOrder (run steps).world (run steps).trace what (run (steps ++ [l])).world := by
  rcases run_snoc steps l with hnothing | ⟨what, hm, hl, recorded⟩
  · exact .inl hnothing
  · refine .inr ⟨what, hl, recorded, ?_⟩
    have hrun := run_reaches steps
    constructor
    case drops =>
      rintro worker target result rfl
      cases hm with
      | called _ allowed =>
          obtain ⟨c, instanceId, name, held, hstep, hresource, hread⟩ := allowed
          obtain ⟨u, earlier, hclaim⟩ := held.claim_entry
          obtain ⟨id, -, hid, hordered⟩ :=
            hrun.deletionsInOrder.claims worker c u earlier hclaim (hstep ▸ by decide)
          obtain rfl : id = instanceId := Option.some.inj (hid.symm.trans hresource)
          rw [hstep] at hordered
          exact ⟨c, id, name, u, earlier, held, hstep, hresource, hread, hclaim, hordered⟩
    case removes => exact fun instanceId row there gone => hrun.removes_row hm there gone
    case raises => exact fun worker event c hwhat held _ => run_raises recorded hwhat held
    case fails =>
      rintro worker c mutate job rfl - owned
      obtain ⟨-, hc⟩ := hm.wrote
      obtain ⟨-, -, hstep, -⟩ := Store.ownedExecution_eq_some.mp owned
      exact ⟨fun instanceId row => (hc.rowsKept rfl).hasRow, hstep, hc.failed rfl owned⟩
    case loses => exact fun worker event c hwhat held step => run_loses recorded hm hwhat held step

/-- Worker 6 is about to end the update that deletes member 3. -/
def departing : List Step :=
  joining ++ [requesting (.requestMemberDeletion 1 3 ["admin"]),
    delivering .instanceUpdateStep01 5] ++
  answering 5 [.done, .done, .done, .done, .outcome .completed "app", .done, .flag true] ++
  [delivering .instanceUpdateStep02 5] ++
  answering 6 [.done, .done, .done, .flag true, .done, .done, .names []]

/-- Worker 3 raises in the first step of a deletion, and so does the end of its attempt. -/
def failing : List Step :=
  provisioning ++ [requesting (.requestInstanceDeletion 1), delivering .instanceDeleteStep01 3] ++
  answering 3 [.done, .fail .databaseError, .fail .databaseError]

def removesConfiguration : Trace → Bool
  | ⟨_, .called _ ⟨.transaction (.removeLocalConfiguration _), _⟩⟩ :: _ => true
  | _ => false

/-- An update takes a member away, and an attempt that raised still owns its job. -/
theorem members_leave_and_failures_roll_back :
    (¬∀ (steps : List Step) (l : Step) (instanceId : UUID) (row : InstanceRow),
      (run steps).world.store.hasRow instanceId row = true →
      (run (steps ++ [l])).world.store.hasRow instanceId row = false →
      ∃ w worker c t, (run (steps ++ [l])).trace =
        ⟨w, .called worker ⟨.transaction (.removeLocalConfiguration c), .ok true⟩⟩ :: t) ∧
    ¬∀ (steps : List Step) (worker : Nat) (error : WorkerError) (c : ExecutionClaim),
      (run steps).threads[worker]? = some (.raise error) →
      Holds (workerHistory worker (run steps).trace) c → deletes c.step →
      (run steps).world.store.ownedExecution c = none := by
  constructor
  · intro h
    have hthere : (run departing).world.store.hasRow 1 (.member 3) = true := by decide +kernel
    have hgone : (run (departing ++ [.act 6 .done])).world.store.hasRow 1 (.member 3) = false := by
      decide +kernel
    obtain ⟨w, worker, c, t, htrace⟩ := h departing (.act 6 .done) 1 (.member 3) hthere hgone
    have hother : removesConfiguration (run (departing ++ [.act 6 .done])).trace = false := by
      decide +kernel
    rw [htrace] at hother
    cases hother
  · intro h
    have hraised : (run failing).threads[3]? = some (.raise .databaseError) := rfl
    have hfirst : (workerHistory 3 (run failing).trace).getLast?.bind claimGiven =
        some ⟨3, StepName.instanceDeleteStep01.task, .instanceDeleteStep01, 1, some .instance,
          some 1⟩ := by decide +kernel
    have howned : ((run failing).world.store.ownedExecution ⟨3, StepName.instanceDeleteStep01.task,
        .instanceDeleteStep01, 1, some .instance, some 1⟩).isSome = true := by decide +kernel
    have hlost := h failing 3 .databaseError _ hraised (holds_of_first hfirst) (by decide)
    rw [hlost] at howned
    cases howned

end CoderManager
