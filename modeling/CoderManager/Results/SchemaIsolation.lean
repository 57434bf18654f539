import CoderManager.Discipline.Applications
import CoderManager.Results.AdminCredentials
import CoderManager.Results.InstanceDeletion

/-!
# Schemas stay apart

Instances share the databases of the pool, each with a schema of its own. A schema is
named after its instance, so no other instance is given it: the creation of the instance
asks for it, its Helm values name it, and only its deletion drops it.
-/
namespace CoderManager
open Programs Tables Leases

def schemaOf (id : UUID) : String := "coder_" ++ toString id

theorem schemaOf_injective : Function.Injective schemaOf := by
  intro id id' h
  have hdigits : Nat.toDigits 10 id = Nat.toDigits 10 id' := by
    have hlist := congrArg String.toList h
    simp only [schemaOf, String.toList_append] at hlist
    simpa [Nat.toString_eq_repr, Nat.repr] using List.append_cancel_left hlist
  have hread := congrArg (Nat.ofDigitChars 10 · 0) hdigits
  simpa [Nat.ofDigitChars_ten_toDigits] using hread

def Store.Separated (s : Store) : Prop :=
  ∀ id a, s.allocations.lookup id = some a → a.schemaName = schemaOf id

section Separated
variable {s s' : Store} {id : UUID}

theorem LeavesPool.separated (h : LeavesPool s s') (hs : s.Separated) : s'.Separated := by
  unfold Store.Separated
  rw [h.allocations]
  exact hs

theorem Accepted.separated {r : Request} (h : Accepted s r s') (hs : s.Separated) :
    s'.Separated := by
  by_cases other : r.changesPool = false
  · exact (h.leavesPool other).separated hs
  · cases h with
    | createInstance =>
        intro id a ha
        rcases Table.lookup_insert_cases ha with ⟨rfl, rfl⟩ | ⟨-, ha⟩
        · rfl
        · exact hs id a ha
    | createDatabase | updateDatabase | deleteDatabase => exact hs
    | _ => exact absurd rfl other

theorem Committed.separated {β : Type} {t : Transaction β} {a : β} {h : WorkerHistory}
    (hc : Committed s t a s') (hg : Discipline.transaction h t)
    (hl : Consistent catalogue s.ledger) (hs : s.Separated) : s'.Separated := by
  by_cases other : t.changesPool = false
  · exact (hc.leavesPool hg hl other).separated hs
  · cases hc with
    | removeStale => exact hs
    | removeLocalConfiguration =>
        intro id a ha
        exact hs id a (Table.lookup_erase_some.mp ha).2
    | _ => exact absurd rfl other

theorem Store.Separated.target (hs : s.Separated) {target : SchemaTarget} {name : String}
    (read : s.answer (.managedDatabaseTarget id) = .ok (some (target, name))) :
    target.schemaName = schemaOf id := by
  simp only [Store.answer, Store.managedDatabaseTarget] at read
  split at read
  · cases read
  · rename_i a ha
    split at read
    · cases read
    · simp only [bind_eq_ok, pure_eq_ok, Option.some.injEq, Prod.mk.injEq] at read
      obtain ⟨password, -, rfl, -⟩ := read
      exact hs id a ha

end Separated

section Runs
variable {w w' : World} {t : Trace} {what : WhatHappened} {worker : Nat} {c : ExecutionClaim}
  {id : UUID}

theorem Run.separated (h : Run w t) : w.store.Separated := by
  refine h.induction (motive := fun w _ => w.store.Separated) ?start ?move
  case start =>
    intro id a ha
    cases ha
  case move =>
    intro w t what w' hrun hm ih
    rcases hm.store_cases with heq | ⟨now, heq⟩ | ⟨r, -, accepted⟩ |
      ⟨worker, β, tr, a, -, allowed, committed⟩
    · exact heq ▸ ih
    · rw [heq]
      exact ih
    · exact accepted.separated ih
    · exact committed.separated allowed hrun.sound.ledger ih

theorem Run.target_read (h : Run w t) {target : SchemaTarget} {name : String}
    (read : Read (workerHistory worker t) (.managedDatabaseTarget id) (some (target, name))) :
    target.schemaName = schemaOf id := by
  obtain ⟨v, hv⟩ := mem_history.mp read
  obtain ⟨later, rest, ht⟩ := List.append_of_mem hv
  obtain ⟨hrun, ⟨v', hm⟩, -⟩ := h.entry (ht ▸ List.suffix_append later _)
  exact hrun.separated.target hm.read.1

/-- An instance that an attempt at a deletion is about is being deleted, or gone. -/
structure Store.Deletes (s : Store) (c : ExecutionClaim) (id : UUID) : Prop where
  resource : c.resourceId = some id
  known : id < s.nextId
  deleting : ∀ i, s.instances.lookup id = some i → i.action = .deleting

theorem Moved.deletes (hrun : Run w t) (hm : Moved w t what w') (h : w.store.Deletes c id) :
    w'.store.Deletes c id where
  resource := h.resource
  known := Nat.lt_of_lt_of_le h.known (hm.nextId_le hrun.sound)
  deleting := by
    intro i' row'
    rcases hm.instance_cases hrun.sound row' with ⟨-, -, -, hid, -⟩ | ⟨i, row, -⟩
    · exact absurd hid (Nat.ne_of_lt h.known)
    · exact ((hm.instance_forward hrun.sound hrun.forward row row').1 (h.deleting i row)).1

/-- A claim is granted for a job that its resource names. -/
def Granted (s : Store) : {β : Type} → Transaction β → β → Prop
  | _, .claimExecution _ _, some c => ∃ job, s.jobs.lookup c.jobId = some job ∧
      Matches catalogue s.ledger c.jobId job.lease
  | _, _, _ => True

theorem Committed.granted {s s' : Store} {β : Type} {tr : Transaction β} {a : β}
    (hc : Committed s tr a s') : Granted s tr a := by
  cases hc with
  | claimExecution row _ current => exact ⟨_, row, current⟩
  | _ => trivial

theorem Moved.claims_deletion (hrun : Run w t)
    (hm : Moved w t (.called worker (claimEvent c)) w')
    (deletes : c.step ∈ JobName.instanceDelete.steps) : ∃ id, w.store.Deletes c id := by
  obtain ⟨job, row, hstep, -, -, hid, -⟩ := hm.claimed_row (c := c) rfl
  obtain ⟨hstage, -⟩ := hrun.sound.ledger.stage c.jobId job.lease (by simp [Store.ledger, row])
  have hdeletes : job.step ∈ JobName.instanceDelete.steps := hstep ▸ deletes
  have hname := JobName.eq_instanceDelete hstage hdeletes
  obtain ⟨id, howner, -⟩ := hrun.deletionsInOrder.jobs c.jobId job row hname
  have hresource := hid.trans (JobExecution.lease_owner.mp howner).2
  obtain ⟨-, commit⟩ := hm.wrote
  -- The claim was granted, so the instance is there and names the job.
  obtain ⟨job', row', hcurrent⟩ := commit.granted
  obtain rfl := Option.some.inj (row.symm.trans row')
  obtain ⟨r, hr, -, haction, -⟩ := hcurrent _ howner
  have hlifecycle : w.store.lifecycle .instance id = some r := by simpa [Store.ledger] using hr
  obtain ⟨i, hi, rfl⟩ := Option.map_eq_some_iff.mp hlifecycle
  refine ⟨id, hresource, hrun.sound.grounded.instances id i hi, fun i' hi' => ?_⟩
  obtain rfl := Option.some.inj (hi.symm.trans hi')
  rw [hname] at haction
  exact (Option.some.inj haction).symm

/-- Whoever deletes an instance does so after its deletion was requested, and the request
stays. -/
theorem Run.deletes (h : Run w t) (held : Holds (workerHistory worker t) c)
    (deletes : c.step ∈ JobName.instanceDelete.steps) : ∃ id, w.store.Deletes c id := by
  refine h.induction (motive := fun w t => Holds (workerHistory worker t) c →
    ∃ id, w.store.Deletes c id) ?start ?move held
  case start =>
    intro held
    exact (not_holds_nil c held).elim
  case move =>
    intro w t what w' hrun hm ih held
    rcases held.before_last with hold | hnil
    · obtain ⟨id, hdeletes⟩ := ih hold
      exact ⟨id, hm.deletes hrun hdeletes⟩
    · have hwhat : what = .called worker (claimEvent c) := by
        have hmem := held.subset (List.mem_singleton_self _)
        rcases mem_workerHistory_cons.mp hmem with hwhat | hmem
        · exact hwhat
        · rw [hnil] at hmem
          cases hmem
      subst hwhat
      obtain ⟨id, hdeletes⟩ := hm.claims_deletion hrun deletes
      exact ⟨id, hm.deletes hrun hdeletes⟩

end Runs

/-- The schema was read for the instance, and PostgreSQL has created it. -/
def SchemaMade (h : WorkerHistory) (id : UUID) : Prop :=
  ∃ target name, Read h (.managedDatabaseTarget id) (some (target, name)) ∧
    Called h (.createSchema target) ()

def createsSchema (step : StepName) : Prop := step = .instanceCreateStep01

/-- An attempt at the first step of a creation moves on once the schema is there. -/
def schemaRule (h : WorkerHistory) (c : ExecutionClaim) : {β : Type} → Op β → Prop
  | _, .transaction (.advanceExecution _ _ _ _) => ∃ id, c.resourceId = some id ∧ SchemaMade h id
  | _, _ => True

section Creation
variable {h : WorkerHistory} {c : ExecutionClaim}

theorem advanceTo_attempt {steps : StepName → Prop} {rule : AttemptRule} {step : StepName}
    {mutate : Mutation} (hc : Holds h c)
    (allowed : rule h c (.transaction (.advanceExecution c step.task step mutate)))
    (dispatch : ∀ h', h <:+ h' → rule h' c (.call (.delay step.task c.jobId))) :
    Keeps (attempts steps rule) (advanceTo c step mutate) h := by
  refine .bind (.perform (attempts_guard hc allowed)) fun committed h₁ hs₁ => ?_
  refine .ite (fun _ => .bind ?_ fun _ _ _ => .pure _) fun _ => .pure _
  refine .ite (fun _ => ?_) fun _ => .pure _
  exact .tryCatch (.perform (attempts_guard (hc.later hs₁) (dispatch _ hs₁))) fun _ _ _ => .pure _

theorem createSchema_attempt :
    Keeps (attempts createsSchema schemaRule) (Tasks.createSchema c) [claimEvent c] := by
  unfold Tasks.createSchema ExecutionClaim.requiredResourceId
  cases hid : c.resourceId with
  | none => exact .throw _
  | some id =>
      refine .perform_bind (attempts_guard Holds.start trivial) fun target _ => ?_
      cases target with
      | none => exact .throw _
      | some target =>
          obtain ⟨target, name⟩ := target
          have hread : Read (⟨.query (.managedDatabaseTarget id), .ok (some (target, name))⟩ ::
            [claimEvent c]) (.managedDatabaseTarget id) (some (target, name)) := List.mem_cons_self
          have hheld := Holds.start.cons (c := c)
            ⟨.query (.managedDatabaseTarget id), .ok (some (target, name))⟩
          refine .perform_bind (attempts_guard hheld trivial) fun _ _ => ?_
          refine advanceTo_attempt (hheld.cons _) ?_ fun _ _ => trivial
          exact ⟨id, hid, target, name, hread.later (List.suffix_cons _ _), List.mem_cons_self⟩

theorem run_creates_schemas (steps : List Step) {e : Entry Op WorkerError World Change} {rest : Trace}
    (hs : e :: rest <:+ (run steps).trace) {worker : Nat} {event : WorkerEvent}
    (what : e.what = .called worker event) (held : Holds (workerHistory worker rest) c)
    (hstep : c.step = .instanceCreateStep01) : schemaRule (workerHistory worker rest) c event.op := by
  refine run_attempts createsSchema schemaRule ?_ steps hs what held hstep
  intro protectedUsernames fuel step c hc hin
  obtain rfl : step = .instanceCreateStep01 := hin
  exact .of_keeps createSchema_attempt fun _ => trivial

end Creation

def SchemaCreated (t : Trace) (id : UUID) : Prop :=
  ∃ worker target, target.schemaName = schemaOf id ∧
    Called (workerHistory worker t) (.createSchema target) ()

/-- Somebody asked for the schema of the instance to be dropped, whatever came of it. -/
def SchemaDropped (t : Trace) (id : UUID) : Prop :=
  ∃ worker target result, target.schemaName = schemaOf id ∧
    (⟨.call (.dropSchema target), result⟩ : WorkerEvent) ∈ workerHistory worker t

/-- Creations that have left their first step had their schema made. -/
def SchemasFirst (t : Trace) : Prop :=
  ∀ v worker c task step mutate answer rest, ⟨v, .called worker
      ⟨.transaction (.advanceExecution c task step mutate), answer⟩⟩ :: rest <:+ t →
    Holds (workerHistory worker rest) c → c.step = .instanceCreateStep01 →
    ∃ id, c.resourceId = some id ∧ SchemaMade (workerHistory worker rest) id

theorem run_schemasFirst (steps : List Step) : SchemasFirst (run steps).trace :=
  fun _ _ _ _ _ _ _ _ hs held hstep => run_creates_schemas steps hs rfl held hstep

theorem SchemaCreated.later {t t' : Trace} {id : UUID} (h : SchemaCreated t id) (hs : t <:+ t') :
    SchemaCreated t' id := by
  obtain ⟨worker, target, hname, hcalled⟩ := h
  exact ⟨worker, target, hname, hcalled.later (hs.filterMap _)⟩

theorem Accepted.creation_step {s s' : Store} {r : Request} (h : Accepted s r s') {j : UUID}
    {job : JobExecution} (row' : s'.jobs.lookup j = some job) (creates : job.name = .instanceCreate) :
    s.jobs.lookup j = some job ∨
      (∃ id, job.lease.owner = some (.instance, some id) ∧ job.step = .instanceCreateStep01) := by
  refine (h.job_filed row').imp_right fun hfiled => ?_
  obtain ⟨application, slug, rfl, rfl, hid⟩ := hfiled.creation creates
  have hstep : job.step = .instanceCreateStep01 := by
    cases h with
    | createInstance =>
        rcases Table.lookup_insert_cases row' with ⟨-, rfl⟩ | ⟨hne, -⟩
        · rfl
        · exact absurd rfl hne
  refine ⟨s.nextId, JobExecution.lease_owner.mpr ⟨?_, hid⟩, hstep⟩
  exact hfiled.placed.trans (congrArg JobName.resourceType creates)

theorem Restarted.provisioned {s : Store} {id : UUID} {i : Instance} {r : Request} {l : Lifecycle}
    (hr : Restarted s id i r l) (alive : i.action = .deleting → i.status ≠ .success)
    (kind : i.Provisioned ∨ i.action = .creating ∨ i.action = .deleting)
    (ready : l.action ≠ .deleting) : i.Provisioned := by
  cases hr with
  | deletion => exact absurd rfl ready
  | power _ _ _ _ settled =>
      rcases settled with hst | ⟨-, hcr, hdel⟩
      · rcases kind with hk | hk | hk
        · exact hk
        · exact .inr (.inr (.inr ⟨hk, hst⟩))
        · exact absurd hst (alive hk)
      · exact kind.resolve_right fun hk => hk.elim hcr hdel

section Order
variable {w w' : World} {t : Trace} {what : WhatHappened} {id : UUID}

/-- An instance is provisioned from its creation on, by the last step of which it becomes so. -/
theorem Moved.provisioned (hrun : Run w t) (hm : Moved w t what w') {i' : Instance}
    (row' : w'.store.instances.lookup id = some i') (ready : i'.Provisioned) :
    (∃ i, w.store.instances.lookup id = some i ∧ i.Provisioned) ∨
    ∃ j job, w.store.jobs.lookup j = some job ∧ job.name = .instanceCreate ∧
      job.lease.owner = some (.instance, some id) ∧ job.step = .instanceCreateStep03 := by
  have alive : i'.action ≠ .deleting := by
    intro hdel
    rcases ready with h | h | h | ⟨h, -⟩ <;> rw [hdel] at h <;> cases h
  rcases hm.store_cases with heq | ⟨now, heq⟩ | ⟨r, -, hr⟩ | ⟨worker, β, tr, a, -, allowed, hc⟩
  · exact .inl ⟨i', heq ▸ row', ready⟩
  · exact .inl ⟨i', by simpa [heq] using row', ready⟩
  · rcases hr.instance_cases row' with ⟨_, _, -, -, rfl⟩ | ⟨i, row, rfl | ⟨l, rfl, hrestart⟩⟩
    · rcases ready with h | h | h | ⟨-, h⟩ <;> cases h
    · exact .inl ⟨_, row, ready⟩
    · exact .inl ⟨i, row, hrestart.provisioned (hrun.forward.deleting id i row)
        (hrun.credited id i row).kind alive⟩
  · obtain ⟨i, row, he⟩ := hc.edited allowed hrun.sound.ledger row'
    obtain ⟨r, hr, hworked⟩ := hc.worked allowed hrun.sound.ledger (Store.lifecycle_instance row')
    rw [Store.lifecycle_instance row, Option.some.injEq] at hr
    subst hr
    cases he with
    | lifecycle _ _ settled => exact .inl ⟨i, row, hworked.provisioned settled ready⟩
    | named _ _ settled => exact .inl ⟨i, row, hworked.provisioned settled ready⟩
    | drawn _ _ _ _ _ _ same =>
        subst same
        exact .inl ⟨i, row, ready⟩
    | @promoted c job _ owned resource current =>
        obtain ⟨hjob, -, -, -, -, hcurrent⟩ := Store.ownedExecution_eq_some.mp owned
        have howner := JobExecution.lease_owner.mpr resource
        obtain ⟨-, -, hstep, haction⟩ := Store.matches_lifecycle hrun.sound.ledger hjob hcurrent
          howner (Store.lifecycle_instance row)
        have htype : job.name.resourceType = some .instance :=
          (hrun.placed c.jobId job hjob).symm.trans resource.1
        have hname : job.name = .instanceCreate := by
          refine JobName.eq_of_action ?_ htype rfl
          exact haction.trans (congrArg some current.1)
        exact .inr ⟨c.jobId, job, hjob, hname, howner,
          Option.some.inj (hstep.symm.trans current.2)⟩

/-- Creations past their first step, and the instances that came through theirs, have their
schema. -/
structure SchemasInOrder (s : Store) (t : Trace) : Prop where
  jobs : ∀ j job, s.jobs.lookup j = some job → job.name = .instanceCreate →
    ∃ id, job.lease.owner = some (.instance, some id) ∧
      (job.step ≠ .instanceCreateStep01 → SchemaCreated t id)
  rows : ∀ id i, s.instances.lookup id = some i → i.Provisioned → SchemaCreated t id

theorem SchemasInOrder.move (ih : SchemasInOrder w.store t) (hrun : Run w t)
    (hm : Moved w t what w') (first : SchemasFirst (⟨w, what⟩ :: t)) :
    SchemasInOrder w'.store (⟨w, what⟩ :: t) where
  jobs := by
    intro j job' row' hname
    have kept : ∀ job, w.store.jobs.lookup j = some job → job'.step = job.step →
        ∃ id, job'.lease.owner = some (.instance, some id) ∧
          (job'.step ≠ .instanceCreateStep01 → SchemaCreated (⟨w, what⟩ :: t) id) := by
      intro job row hstep
      obtain ⟨hsame, howner⟩ := hm.job_same hrun.sound row row'
      obtain ⟨id, hid, hmade⟩ := ih.jobs j job row (hsame.symm.trans hname)
      exact ⟨id, howner.trans hid, fun h => (hmade (hstep ▸ h)).later (List.suffix_cons _ _)⟩
    by_cases hknown : j < w.store.nextId
    · obtain ⟨job, row, hstep | ⟨worker, β, tr, a, rfl, hg, hadv⟩⟩ := hm.job_step hknown row'
      · exact kept job row hstep
      · unfold AdvancesJob at hadv
        split at hadv
        · rename_i c task next mutate
          obtain ⟨rfl, rfl, howned⟩ := hadv
          obtain ⟨hsame, howner⟩ := hm.job_same hrun.sound row row'
          obtain ⟨id, hid, hmade⟩ := ih.jobs c.jobId job row (hsame.symm.trans hname)
          refine ⟨id, howner.trans hid, fun _ => ?_⟩
          by_cases hstep : job.step = .instanceCreateStep01
          · obtain ⟨job₀, howned₀⟩ := Option.isSome_iff_exists.mp howned
            obtain ⟨hrow₀, -, hstep₀, -⟩ := Store.ownedExecution_eq_some.mp howned₀
            obtain rfl : job = job₀ := Option.some.inj (row.symm.trans hrow₀)
            obtain ⟨htype, hresource⟩ := JobExecution.lease_owner.mp hid
            obtain ⟨-, hcid⟩ := hrun.owned_resource hg.1 howned₀ htype
            obtain ⟨id', hid', target, name, hread, hcalled⟩ :=
              first _ _ _ _ _ _ _ _ List.suffix_rfl hg.1 (hstep₀.symm.trans hstep)
            obtain rfl : id' = id := Option.some.inj (hid'.symm.trans (hcid.trans hresource))
            have hcreated : SchemaCreated t id' := ⟨worker, target, hrun.target_read hread, hcalled⟩
            exact hcreated.later (List.suffix_cons _ _)
          · exact (hmade hstep).later (List.suffix_cons _ _)
        · cases hadv
    · rcases hm.store_cases with heq | ⟨now, heq⟩ | ⟨r, rfl, hr⟩ | ⟨worker, β, tr, a, rfl, hg, hc⟩
      · exact kept job' (heq ▸ row') rfl
      · exact kept job' (by simpa [heq] using row') rfl
      · rcases hr.creation_step row' hname with row | ⟨id, howner, hstep⟩
        · exact kept job' row rfl
        · exact ⟨id, howner, fun h => absurd hstep h⟩
      · rcases hc.jobs_old row' with ⟨job, row, -⟩ | ⟨-, hupdate⟩
        · exact absurd (hrun.sound.ledger.known j job.lease (by simp [Store.ledger, row])) hknown
        · cases hupdate.symm.trans hname
  rows := by
    intro id i' row' ready
    rcases hm.provisioned hrun row' ready with ⟨i, row, hready⟩ | ⟨j, job, row, hname, howner, hstep⟩
    · exact (ih.rows id i row hready).later (List.suffix_cons _ _)
    · obtain ⟨id', howner', hmade⟩ := ih.jobs j job row hname
      cases howner.symm.trans howner'
      exact (hmade (by rw [hstep]; decide)).later (List.suffix_cons _ _)

theorem Run.schemasInOrder (h : Run w t) (first : SchemasFirst t) : SchemasInOrder w.store t := by
  refine h.induction (motive := fun w t => SchemasFirst t → SchemasInOrder w.store t) ?start ?move
    first
  case start =>
    intro _
    refine ⟨fun j job row => ?_, fun id i row => ?_⟩
    · cases row
    · cases row
  case move =>
    intro w t what w' hrun hm ih first
    have hold : SchemasFirst t := fun v worker c task step mutate answer rest hs =>
      first v worker c task step mutate answer rest (hs.trans (List.suffix_cons _ _))
    exact (ih hold).move hrun hm first

theorem Run.creates (h : Run w t) {v : World} {worker : Nat} {target : SchemaTarget}
    {result : Except WorkerError Unit} {rest : Trace}
    (hs : ⟨v, .called worker ⟨.call (.createSchema target), result⟩⟩ :: rest <:+ t) :
    ∃ c id, Holds (workerHistory worker rest) c ∧ c.step = .instanceCreateStep01 ∧
      c.resourceId = some id ∧ target.schemaName = schemaOf id := by
  obtain ⟨hrun, ⟨v', hm⟩, -⟩ := h.entry hs
  cases hm with
  | called _ allowed =>
      obtain ⟨c, id, name, held, hstep, resource, hread⟩ := allowed
      exact ⟨c, id, held, hstep, resource, hrun.target_read hread⟩

theorem run_charts (steps : List Step) {v : World} {worker : Nat} {slug : String}
    {attachedName : Option String} {members : List (String × MemberRole)}
    {values : InstanceHelmValues} {result : Except WorkerError ArgoCdReconcileResult} {rest : Trace}
    (hs : ⟨v, .called worker ⟨.call (.reconcileInstanceApplication id slug attachedName members
      values), result⟩⟩ :: rest <:+ (run steps).trace) :
    ∃ c, Holds (workerHistory worker rest) c ∧ c.resourceId = some id ∧
      values.target.schemaName = schemaOf id := by
  obtain ⟨hrun, ⟨v', hm⟩, -⟩ := (run_reaches steps).entry hs
  cases hm with
  | called _ allowed =>
      obtain ⟨-, c, held, resource, hreconciles⟩ := allowed
      obtain ⟨-, -, hvalues⟩ := run_addresses steps hs rfl held hreconciles.asks
      exact ⟨c, held, resource, hrun.target_read hvalues.target⟩

theorem Run.drops (h : Run w t) {v : World} {worker : Nat} {target : SchemaTarget}
    {result : Except WorkerError Unit} {rest : Trace}
    (hs : ⟨v, .called worker ⟨.call (.dropSchema target), result⟩⟩ :: rest <:+ t) :
    ∃ c id, Holds (workerHistory worker rest) c ∧ c.step = .instanceDeleteStep03 ∧
      v.store.Deletes c id ∧ target.schemaName = schemaOf id := by
  obtain ⟨hrun, ⟨v', hm⟩, -⟩ := h.entry hs
  cases hm with
  | called _ allowed =>
      obtain ⟨c, id, name, held, hstep, resource, hread⟩ := allowed
      obtain ⟨id', hdeletes⟩ := hrun.deletes held (hstep ▸ by decide)
      obtain rfl : id' = id := Option.some.inj (hdeletes.resource.symm.trans resource)
      exact ⟨c, id', held, hstep, hdeletes, hrun.target_read hread⟩

/-- Who holds a claim at a deletion keeps it, so what was deleted once stays so. -/
theorem Run.dropped (h : Run w t) (dropped : SchemaDropped t id) :
    ∀ i, w.store.instances.lookup id = some i → i.action = .deleting := by
  obtain ⟨worker, target, result, hname, hmem⟩ := dropped
  obtain ⟨v, hv⟩ := mem_history.mp hmem
  obtain ⟨later, rest, ht⟩ := List.append_of_mem hv
  have hs : ⟨v, .called worker ⟨.call (.dropSchema target), result⟩⟩ :: rest <:+ t :=
    ht ▸ List.suffix_append _ _
  obtain ⟨c, id', held, hstep, hbefore, hown⟩ := h.drops hs
  obtain rfl : id = id' := schemaOf_injective (hname.symm.trans hown)
  have hheld : Holds (workerHistory worker t) c :=
    held.later (((List.suffix_cons _ _).trans hs).filterMap _)
  obtain ⟨id', hdeletes⟩ := h.deletes hheld (hstep ▸ by decide)
  obtain rfl : id' = id := Option.some.inj (hdeletes.resource.symm.trans hbefore.resource)
  exact hdeletes.deleting

end Order

/-- What the schemas of the pool are used for in a run. -/
structure SchemasIsolated (w : World) (t : Trace) : Prop where
  /-- No two instances share a schema, whatever databases they are on. -/
  apart : ∀ id id' a a', w.store.allocations.lookup id = some a →
    w.store.allocations.lookup id' = some a' → a.schemaName = a'.schemaName → id = id'
  /-- A creation asks for the schema of its own instance. -/
  created : ∀ v worker target result rest,
    ⟨v, .called worker ⟨.call (.createSchema target), result⟩⟩ :: rest <:+ t →
    ∃ c id, Holds (workerHistory worker rest) c ∧ c.step = .instanceCreateStep01 ∧
      c.resourceId = some id ∧ target.schemaName = schemaOf id
  /-- A Helm chart is given the schema of the instance it is for, and by an attempt at it. -/
  charted : ∀ v worker id slug attachedName members values result rest,
    ⟨v, .called worker ⟨.call (.reconcileInstanceApplication id slug attachedName members values),
      result⟩⟩ :: rest <:+ t →
    ∃ c, Holds (workerHistory worker rest) c ∧ c.resourceId = some id ∧
      values.target.schemaName = schemaOf id
  /-- A deletion drops the schema of its own instance, and of no instance in use. -/
  dropped : ∀ v worker target result rest,
    ⟨v, .called worker ⟨.call (.dropSchema target), result⟩⟩ :: rest <:+ t →
    ∃ c id, Holds (workerHistory worker rest) c ∧ c.step = .instanceDeleteStep03 ∧
      c.resourceId = some id ∧ target.schemaName = schemaOf id ∧
      ∀ id' i, v.store.instances.lookup id' = some i → target.schemaName = schemaOf id' →
        i.action = .deleting
  /-- Until its deletion is requested, the schema of an instance is there from its creation on. -/
  kept : ∀ id i, w.store.instances.lookup id = some i → i.action ≠ .deleting →
    ¬SchemaDropped t id ∧ (i.Provisioned → SchemaCreated t id)

/-- In every run each instance keeps a schema of its own until it is deleted. -/
theorem schemas_are_isolated (steps : List Step) :
    SchemasIsolated (run steps).world (run steps).trace where
  apart := by
    intro id id' a a' ha ha' hsame
    have hseparated := (run_reaches steps).separated
    exact schemaOf_injective (((hseparated id a ha).symm.trans hsame).trans (hseparated id' a' ha'))
  created := by
    intro v worker target result rest hs
    exact (run_reaches steps).creates hs
  charted := by
    intro v worker id slug attachedName members values result rest hs
    exact run_charts steps hs
  dropped := by
    intro v worker target result rest hs
    obtain ⟨c, id, held, hstep, hdeletes, hname⟩ := (run_reaches steps).drops hs
    refine ⟨c, id, held, hstep, hdeletes.resource, hname, fun id' i hi hsame => ?_⟩
    obtain rfl : id = id' := schemaOf_injective (hname.symm.trans hsame)
    exact hdeletes.deleting i hi
  kept := by
    intro id i hi alive
    have hrun := run_reaches steps
    refine ⟨fun hdropped => alive (hrun.dropped hdropped i hi), fun ready => ?_⟩
    exact (hrun.schemasInOrder (run_schemasFirst steps)).rows id i hi ready

end CoderManager
