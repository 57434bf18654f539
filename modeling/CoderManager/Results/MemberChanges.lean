import CoderManager.Refinement.Members
import CoderManager.Results.AppliedRevisions

/-!
# Member changes are reconciled

An update finalises the members it claimed after Argo CD was given the members of the
instance. Both the claim of the members and the reconciliation go ahead for an attempt
that has been superseded, so the end of an update tells the truth in the runs in which
neither is late.
-/
namespace CoderManager
open Programs Tables Leases

def reconciledList (id : UUID) : {β : Type} → Op β → Except WorkerError β →
    Option (List (String × MemberRole))
  | _, .call (.reconcileInstanceApplication id' _ _ members _), .ok result =>
      if id' = id ∧ result.status = .completed then some members else none
  | _, _, _ => none

def lastReconciled (id : UUID) : Trace → Option (List (String × MemberRole))
  | [] => none
  | ⟨_, .called _ event⟩ :: t => reconciledList id event.op event.result <|> lastReconciled id t
  | ⟨_, .changed _⟩ :: t => lastReconciled id t

/-- The end of an update settles what the last reconciliation was given. -/
structure FinalisedAs (before after : Store) (answer : Store.UpdateResult) (id : UUID)
    (listed : List (String × MemberRole)) : Prop where
  settled : answer = .success → (∃ i, after.instances.lookup id = some i ∧ i.status = .success) ∧
    ∀ mid m, after.members.lookup mid = some m → m.instanceId = id → m.status = .success
  reconciled : answer = .success → ∀ username role, (username, role) ∈ listed ↔
    ∃ mid m, after.members.lookup mid = some m ∧ m.instanceId = id ∧ m.username = username ∧
      m.role = role
  removed : ∀ mid m, before.members.lookup mid = some m → after.members.lookup mid = none →
    m.instanceId = id ∧ ∀ role, (m.username, role) ∉ listed

/-- No update of a run was finalised without being reconciled. -/
def MembersReconciled (t : Trace) : Prop :=
  ∀ v worker c memberIds name answer rest, ⟨v, .called worker
      ⟨.transaction (.finalizeUpdate c memberIds name), .ok answer⟩⟩ :: rest <:+ t →
    answer ≠ .noop → ∃ id s' listed, c.resourceId = some id ∧
      v.store.finalizeUpdate c memberIds name = .ok (answer, s') ∧
      lastReconciled id rest = some listed ∧ FinalisedAs v.store s' answer id listed

def commitsMembers : {β : Type} → Op β → Except WorkerError β → Bool
  | _, .transaction (.claimMembers _), .ok _ => true
  | _, .call (.reconcileInstanceApplication _ _ _ _ _), .ok result => result.status == .completed
  | _, _, _ => false

/-- Members were claimed and reconciled by attempts that owned their execution. -/
def timely : Trace → Bool
  | [] => true
  | ⟨w, .called worker event⟩ :: t =>
      (!commitsMembers event.op event.result ||
        ((workerHistory worker t).getLast?.bind claimGiven).any fun c =>
          (w.store.ownedExecution c).isSome) && timely t
  | ⟨_, .changed _⟩ :: t => timely t

theorem timely_of_cons {e : Entry Op WorkerError World Change} {t : Trace}
    (h : timely (e :: t) = true) : timely t = true := by
  obtain ⟨w, what⟩ := e
  cases what with
  | called worker event => exact (Bool.and_eq_true_iff.mp h).2
  | changed e => exact h

theorem timely_of_suffix {rest t : Trace} (h : timely t = true) (hs : rest <:+ t) :
    timely rest = true := by
  induction t with
  | nil => exact List.suffix_nil.mp hs ▸ h
  | cons e t ih =>
      rcases List.suffix_cons_iff.mp hs with rfl | hs
      · exact h
      · exact ih (timely_of_cons h) hs

theorem Holds.first {h : WorkerHistory} {c : ExecutionClaim} (held : Holds h c) :
    h.getLast?.bind claimGiven = some c := by
  obtain ⟨later, rfl⟩ := held
  simp [claimEvent, claimGiven]

theorem timely_called {w : World} {worker : Nat} {event : WorkerEvent} {t : Trace}
    {c : ExecutionClaim} (h : timely (⟨w, .called worker event⟩ :: t) = true)
    (commits : commitsMembers event.op event.result = true)
    (held : Holds (workerHistory worker t) c) : (w.store.ownedExecution c).isSome = true := by
  have hfirst := (Bool.and_eq_true_iff.mp h).1
  rw [commits, held.first] at hfirst
  exact hfirst

/-- The attempt owns its execution and works on the instance, which is at its step. -/
structure Store.Attends (s : Store) (c : ExecutionClaim) (id : UUID) : Prop where
  type : c.resourceType = some .instance
  resource : c.resourceId = some id
  owned : (s.ownedExecution c).isSome = true
  row : ∃ i, s.instances.lookup id = some i ∧ i.step = some c.step

section Attendance
variable {w w' : World} {t : Trace} {what : WhatHappened} {worker worker' : Nat}
  {c c' : ExecutionClaim} {id : UUID} {s' : Store}

theorem Run.attends (h : Run w t) (held : Holds (workerHistory worker t) c)
    (type : c.resourceType = some .instance) (resource : c.resourceId = some id)
    (owned : (w.store.ownedExecution c).isSome = true) : w.store.Attends c id := by
  obtain ⟨job, r, hjob, howner, hr, -⟩ := h.owned_running held type resource owned
  obtain ⟨hrow, -, hstep, -, -, current⟩ := Store.ownedExecution_eq_some.mp hjob
  have hat := (Store.matches_lifecycle h.sound.ledger hrow current howner hr).2.2.1
  obtain ⟨i, hi, rfl⟩ := Option.map_eq_some_iff.mp hr
  exact ⟨type, resource, owned, i, hi, hat.trans (congrArg some hstep)⟩

theorem Run.attends_instance (h : Run w t) (held : Holds (workerHistory worker t) c)
    (works : c.step.resourceType = some .instance) (resource : c.resourceId = some id)
    (owned : (w.store.ownedExecution c).isSome = true) : w.store.Attends c id := by
  obtain ⟨job, hjob⟩ := Option.isSome_iff_exists.mp owned
  obtain ⟨hrow, -⟩ := Store.ownedExecution_eq_some.mp hjob
  have htype : job.resourceType = some .instance := by
    rw [h.placed c.jobId job hrow,
      JobName.resourceType_eq (Store.owned_mem_steps h.sound.ledger hjob), works]
  exact h.attends held (h.owned_resource held hjob htype).1 resource owned

theorem Moved.attends_before (hrun : Run w t) (hm : Moved w t what w')
    (held : Holds (workerHistory worker t) c) (attends : w'.store.Attends c id) :
    w.store.Attends c id :=
  hrun.attends held attends.type attends.resource (hm.owned_before hrun held attends.owned)

theorem Run.holder_unique (h : Run w t) (held : Holds (workerHistory worker t) c)
    (held' : Holds (workerHistory worker' t) c) : worker = worker' := by
  obtain ⟨u, hu⟩ := mem_history.mp (held.subset (List.mem_singleton_self _))
  obtain ⟨u', hu'⟩ := mem_history.mp (held'.subset (List.mem_singleton_self _))
  have hgiven : ∀ v k, claimed ⟨v, .called k (claimEvent c)⟩ = some c := fun _ _ => rfl
  -- Two claims on record are of different attempts.
  have hpairs : t.Pairwise fun e e' => claimed e = some c → claimed e' = some c → e = e' := by
    refine (List.pairwise_filterMap.mp h.claimsInOrder.increasing).imp fun hlt hc hc' => ?_
    exact absurd (hlt c hc c hc' rfl) (Nat.lt_irrefl _)
  have hsame := List.Pairwise.forall_of_forall_of_flip (fun _ _ _ _ => rfl) hpairs
    (hpairs.imp fun heq hc hc' => (heq hc' hc).symm) hu hu' (hgiven _ _) (hgiven _ _)
  cases hsame
  rfl

/-- An instance is attended to by one worker. -/
theorem Run.attends_unique (h : Run w t) (held : Holds (workerHistory worker t) c)
    (held' : Holds (workerHistory worker' t) c') (attends : w.store.Attends c id)
    (attends' : w.store.Attends c' id) : worker = worker' ∧ c = c' := by
  have howned := Store.ownedExecution_isSome_iff.mp attends.owned
  have howned' := Store.ownedExecution_isSome_iff.mp attends'.owned
  have heq : c = c' := by
    refine h.claimsInOrder.owned_unique held.mem_claims held'.mem_claims (.inl ⟨?_, ?_, ?_⟩) howned
      howned'
    · simp [attends.type]
    · exact attends.type.trans attends'.type.symm
    · exact attends.resource.trans attends'.resource.symm
  subst heq
  exact ⟨h.holder_unique held held', rfl⟩

theorem Moved.attended_before (hrun : Run w t) (hm : Moved w t what w')
    (held : Holds (workerHistory worker (⟨w, what⟩ :: t)) c) (attends : w'.store.Attends c id)
    {event : WorkerEvent} (before : event ∈ workerHistory worker t) :
    Holds (workerHistory worker t) c ∧ w.store.Attends c id := by
  have hheld := held.before_last.resolve_right fun hnil => by
    rw [hnil] at before
    cases before
  exact ⟨hheld, hm.attends_before hrun hheld attends⟩

theorem Run.claimed_timely (h : Run w t) {β : Type} {tr : Transaction β} {a : β}
    (hm : Moved w t (.called worker ⟨.transaction tr, .ok a⟩) w')
    (ontime : timely (⟨w, .called worker ⟨.transaction tr, .ok a⟩⟩ :: t) = true)
    (claims : tr.claimant = some c) (resource : c.resourceId = some id) :
    workerHistory worker t = [claimEvent c] ∧ c.step = .instanceUpdateStep01 ∧
      w.store.Attends c id := by
  cases tr with
  | claimMembers c' =>
      cases claims
      obtain ⟨hfirst, hstep⟩ := hm.wrote.1
      have held : Holds (workerHistory worker t) c := hfirst ▸ .start
      refine ⟨hfirst, hstep, h.attends_instance held (hstep ▸ rfl) resource ?_⟩
      exact timely_called ontime rfl held
  | _ => cases claims

theorem reconciledList_eq_some {β : Type} {o : Op β} {result : Except WorkerError β}
    {listed : List (String × MemberRole)} (h : reconciledList id o result = some listed) :
    ∃ slug attachedName helmValues name, (⟨o, result⟩ : WorkerEvent) =
      ⟨.call (.reconcileInstanceApplication id slug attachedName listed helmValues),
        .ok ⟨.completed, name⟩⟩ := by
  unfold reconciledList at h
  split at h
  · rename_i result
    obtain ⟨status, name⟩ := result
    split at h
    · rename_i hdone
      obtain ⟨rfl, rfl⟩ := hdone
      cases h
      exact ⟨_, _, _, _, rfl⟩
    · cases h
  · cases h

theorem Run.reconciled_timely (h : Run w t) {event : WorkerEvent}
    (hm : Moved w t (.called worker event) w')
    (ontime : timely (⟨w, .called worker event⟩ :: t) = true)
    {listed : List (String × MemberRole)}
    (hlisted : reconciledList id event.op event.result = some listed) :
    ∃ c, Holds (workerHistory worker t) c ∧ c.step ≠ .instanceUpdateStep02 ∧
      w.store.Attends c id ∧ ∀ e ∈ workerHistory worker t, isReconciliation e.op = false := by
  obtain ⟨o, result⟩ := event
  obtain ⟨slug, attachedName, helmValues, name, hevent⟩ := reconciledList_eq_some hlisted
  rw [hevent] at hm ontime
  cases hm with
  | called _ allowed =>
      obtain ⟨hfirst, c, held, resource, hrec⟩ := allowed
      have howned := timely_called ontime rfl held
      have hstep : c.step ≠ .instanceUpdateStep02 ∧ c.step.resourceType = some .instance := by
        cases hrec with
        | update step | start step =>
            rw [step]
            exact ⟨by decide, rfl⟩
        | restore step => rcases step with h | h <;> rw [h] <;> exact ⟨by decide, rfl⟩
      exact ⟨c, held, hstep.1, h.attends_instance held hstep.2 resource howned, hfirst⟩

theorem Run.aligned (h : Run w t) (hm : Moved w t what w')
    (there : (w'.store.instances.lookup id).isSome = true)
    (unclaimed : ∀ worker β (tr : Transaction β) a c,
      what = .called worker ⟨.transaction tr, .ok a⟩ → tr.claimant = some c →
      c.resourceId ≠ some id) {listed : List (String × MemberRole)}
    (ha : w.store.Aligned id listed) : w'.store.Aligned id listed := by
  rcases hm.store_cases with heq | ⟨now, heq⟩ | ⟨r, -, hr⟩ | ⟨worker, β, tr, a, hwhat, hg, hc⟩
  · exact heq ▸ ha
  · rw [heq]
    exact ⟨ha.present, ha.absent, ha.known⟩
  · exact hr.aligned h.sound.grounded ha
  · exact hc.aligned hg there (fun c => unclaimed worker β tr a c hwhat) ha

end Attendance

/-- What attempts and instances have in common with the last reconciliation. -/
structure MembersInOrder (s : Store) (t : Trace) : Prop where
  /-- The members that an attempt claimed, or read, have not changed since. -/
  claimed : ∀ worker c id claimed, Holds (workerHistory worker t) c → s.Attends c id →
    Wrote (workerHistory worker t) (.claimMembers c) claimed → s.Aligned id claimed.members
  read : ∀ worker c id missing snapshot, Holds (workerHistory worker t) c → s.Attends c id →
    Read (workerHistory worker t) (.instanceSnapshot c.resourceId missing) snapshot →
    s.Aligned id snapshot.members
  /-- Nobody reconciles an instance after the attempt that attends to it did. -/
  reconciled : ∀ worker c id listed name, Holds (workerHistory worker t) c → s.Attends c id →
    Reconciled (workerHistory worker t) id listed name → lastReconciled id t = some listed
  /-- An update is at its clean-up after a reconciliation of the members there are. -/
  advanced : ∀ id i, s.instances.lookup id = some i → i.step = some .instanceUpdateStep02 →
    ∃ listed, lastReconciled id t = some listed ∧ s.Aligned id listed

section Order
variable {w w' : World} {t : Trace} {what : WhatHappened}

/-- While an attempt attends, and has done more than to claim its job, no other claims the
members. -/
theorem Run.unclaimed_by_others (h : Run w t) (hm : Moved w t what w')
    (ontime : timely (⟨w, what⟩ :: t) = true) {worker : Nat} {c : ExecutionClaim} {id : UUID}
    (held : Holds (workerHistory worker t) c) (attends : w.store.Attends c id)
    {event : WorkerEvent} (did : event ∈ workerHistory worker t) (more : event ≠ claimEvent c) :
    ∀ worker' β (tr : Transaction β) a c', what = .called worker' ⟨.transaction tr, .ok a⟩ →
      tr.claimant = some c' → c'.resourceId ≠ some id := by
  rintro worker' β tr a c' rfl claims resource
  obtain ⟨hfirst, -, attends'⟩ := h.claimed_timely hm ontime claims resource
  have held' : Holds (workerHistory worker' t) c' := hfirst ▸ .start
  obtain ⟨rfl, rfl⟩ := h.attends_unique held held' attends attends'
  rw [hfirst, List.mem_singleton] at did
  exact more did

def Op.claimsJob : {β : Type} → Op β → Bool
  | _, .transaction (.claimExecution _ _) => true
  | _, _ => false

theorem ne_claimEvent {event : WorkerEvent} (h : event.op.claimsJob = false) (c : ExecutionClaim) :
    event ≠ claimEvent c := by
  rintro rfl
  cases h

/-- An instance at its clean-up is neither claimed nor reconciled. -/
theorem Run.undisturbed_cleanup (h : Run w t) (hm : Moved w t what w')
    (ontime : timely (⟨w, what⟩ :: t) = true) {id : UUID} {i : Instance}
    (row : w.store.instances.lookup id = some i) (cleans : i.step = some .instanceUpdateStep02) :
    (∀ worker β (tr : Transaction β) a c, what = .called worker ⟨.transaction tr, .ok a⟩ →
      tr.claimant = some c → c.resourceId ≠ some id) ∧
    lastReconciled id (⟨w, what⟩ :: t) = lastReconciled id t := by
  have away : ∀ {c : ExecutionClaim}, w.store.Attends c id → c.step ≠ .instanceUpdateStep02 →
      False := by
    intro c attends hstep
    obtain ⟨i₀, row₀, hat⟩ := attends.row
    obtain rfl := Option.some.inj (row.symm.trans row₀)
    exact hstep (Option.some.inj (hat.symm.trans cleans))
  constructor
  · rintro worker β tr a c rfl claims resource
    obtain ⟨-, hstep, attends⟩ := h.claimed_timely hm ontime claims resource
    exact away attends (by rw [hstep]; decide)
  · cases what with
    | changed e => rfl
    | called worker event =>
        cases hlisted : reconciledList id event.op event.result with
        | none => simp [lastReconciled, hlisted]
        | some listed =>
            obtain ⟨c, -, hstep, attends, -⟩ := h.reconciled_timely hm ontime hlisted
            exact (away attends hstep).elim

theorem Moved.reaches_cleanup (hm : Moved w t what w') {id : UUID} {i' : Instance}
    (row' : w'.store.instances.lookup id = some i') (cleans : i'.step = some .instanceUpdateStep02) :
    (∃ i, w.store.instances.lookup id = some i ∧ i.step = some .instanceUpdateStep02) ∨
    ∃ worker c task mutate job, what = .called worker
      ⟨.transaction (.advanceExecution c task .instanceUpdateStep02 mutate), .ok true⟩ ∧
      w.store.ownedExecution c = some job ∧ job.lease.owner = some (.instance, some id) := by
  rcases hm.store_cases with heq | ⟨now, heq⟩ | ⟨r, -, hr⟩ | ⟨worker, β, tr, a, rfl, -, hc⟩
  · exact .inl ⟨i', heq ▸ row', cleans⟩
  · exact .inl ⟨i', by simpa [heq] using row', cleans⟩
  · rcases hr.instance_cases row' with ⟨_, _, -, -, rfl⟩ | ⟨i, hi, rfl | ⟨l, rfl, hrestart⟩⟩
    · cases cleans
    · exact .inl ⟨_, hi, cleans⟩
    · -- No request files a job at the clean-up.
      cases hrestart with
      | deletion _ _ entry => rcases entry with ⟨rfl, -⟩ | ⟨rfl, -⟩ <;> cases cleans
      | power _ _ _ staged =>
          rcases staged with ⟨-, rfl⟩ | ⟨-, rfl⟩ | ⟨-, rfl⟩ <;> cases cleans
  · rcases hc.instance_step row' cleans with hold | hadv | hother
    · exact .inl hold
    · unfold AdvancesInstance at hadv
      split at hadv
      · obtain ⟨rfl, job, owned, howner⟩ := hadv
        exact .inr ⟨worker, _, _, _, job, rfl, owned, howner⟩
      · exact hadv.elim
    · cases hother

theorem MembersInOrder.move (ih : MembersInOrder w.store t) (h : Run w t) (hm : Moved w t what w')
    (ontime : timely (⟨w, what⟩ :: t) = true) : MembersInOrder w'.store (⟨w, what⟩ :: t) where
  claimed := by
    intro worker c id claimed held attends hwrote
    rcases mem_workerHistory_cons.mp hwrote with rfl | hold
    · obtain ⟨id', resource, hmembers, -, same⟩ := hm.wrote.2.claimsRows
      obtain rfl := Option.some.inj (resource.symm.trans attends.resource)
      rw [hmembers]
      exact h.sound.grounded.aligned same
    · obtain ⟨hheld, hattends⟩ := hm.attended_before h held attends hold
      refine h.aligned hm ?_ (h.unclaimed_by_others hm ontime hheld hattends hold
        (ne_claimEvent rfl c)) (ih.claimed worker c id claimed hheld hattends hold)
      obtain ⟨i, hi, -⟩ := attends.row
      exact Option.isSome_iff_exists.mpr ⟨i, hi⟩
  read := by
    intro worker c id missing snapshot held attends hread
    rcases mem_workerHistory_cons.mp hread with rfl | hold
    · obtain ⟨hanswer, rfl⟩ := hm.read
      simp only [Store.answer, Store.instanceSnapshot, bind_eq_ok, pure_eq_ok, found_eq_ok] at hanswer
      obtain ⟨⟨id', i⟩, hrow, rfl⟩ := hanswer
      obtain ⟨resource, -⟩ := Store.claimedInstance_eq_some.mp hrow
      obtain rfl := Option.some.inj (resource.symm.trans attends.resource)
      exact h.sound.grounded.aligned fun _ => rfl
    · obtain ⟨hheld, hattends⟩ := hm.attended_before h held attends hold
      refine h.aligned hm ?_ (h.unclaimed_by_others hm ontime hheld hattends hold
        (ne_claimEvent rfl c)) (ih.read worker c id missing snapshot hheld hattends hold)
      obtain ⟨i, hi, -⟩ := attends.row
      exact Option.isSome_iff_exists.mpr ⟨i, hi⟩
  reconciled := by
    rintro worker c id listed name held attends ⟨slug, attachedName, helmValues, hcalled⟩
    rcases mem_workerHistory_cons.mp hcalled with rfl | hold
    · simp [lastReconciled, reconciledList]
    · obtain ⟨hheld, hattends⟩ := hm.attended_before h held attends hold
      have hlast := ih.reconciled worker c id listed name hheld hattends
        ⟨slug, attachedName, helmValues, hold⟩
      cases what with
      | changed e => exact hlast
      | called worker' event =>
          cases hlisted : reconciledList id event.op event.result with
          | none => simp [lastReconciled, hlisted, hlast]
          | some listed' =>
              -- Whoever reconciles an instance attends to it, and does so once.
              obtain ⟨c', held', -, attends', hfirst⟩ := h.reconciled_timely hm ontime hlisted
              obtain ⟨rfl, -⟩ := h.attends_unique hheld held' hattends attends'
              cases hfirst _ hold
  advanced := by
    intro id i' row' cleans
    have there : (w'.store.instances.lookup id).isSome = true :=
      Option.isSome_iff_exists.mpr ⟨i', row'⟩
    rcases hm.reaches_cleanup row' cleans with ⟨i, row, hcleans⟩ |
      ⟨worker, c, task, mutate, job, hwhat, owned, howner⟩
    · obtain ⟨unclaimed, hlast⟩ := h.undisturbed_cleanup hm ontime row hcleans
      obtain ⟨listed, hlisted, haligned⟩ := ih.advanced id i row hcleans
      exact ⟨listed, hlast.trans hlisted, h.aligned hm there unclaimed haligned⟩
    · have unclaimed : ∀ worker β (tr : Transaction β) a c,
          what = .called worker ⟨.transaction tr, .ok a⟩ → tr.claimant = some c →
          c.resourceId ≠ some id := by
        intro worker' β tr a c' heq claims
        cases hwhat.symm.trans heq
        cases claims
      have hlast : lastReconciled id (⟨w, what⟩ :: t) = lastReconciled id t := by
        simp [hwhat, lastReconciled, reconciledList]
      rw [hlast]
      obtain ⟨⟨held, -, hadv⟩, -⟩ := (hwhat ▸ hm).wrote
      obtain ⟨htype, hid⟩ := JobExecution.lease_owner.mp howner
      obtain ⟨hctype, hcid⟩ := h.owned_resource held owned htype
      have attends := h.attends held hctype (hcid.trans hid) (by simp [owned])
      cases hadv with
      | updateInstance _ _ resource own reconciled =>
          obtain rfl := Option.some.inj (resource.symm.trans attends.resource)
          exact ⟨_, ih.reconciled worker c _ _ _ held attends reconciled,
            h.aligned hm there unclaimed (ih.claimed worker c _ _ held attends own)⟩
      | startInstance _ _ resource own reconciled =>
          obtain rfl := Option.some.inj (resource.symm.trans attends.resource)
          exact ⟨_, ih.reconciled worker c _ _ _ held attends reconciled,
            h.aligned hm there unclaimed (ih.read worker c _ _ _ held attends own)⟩

theorem Run.membersInOrder (h : Run w t) (ontime : timely t = true) : MembersInOrder w.store t := by
  refine h.induction (motive := fun w t => timely t = true → MembersInOrder w.store t) ?start ?move
    ontime
  case start =>
    refine fun _ => ⟨fun worker c _ _ held => ?_, fun worker c _ _ _ held => ?_,
      fun worker c _ _ _ held => ?_, fun id i row => ?_⟩
    · exact absurd held (not_holds_nil c)
    · exact absurd held (not_holds_nil c)
    · exact absurd held (not_holds_nil c)
    · cases row
  case move =>
    exact fun w t what w' hrun hm ih ontime => (ih (timely_of_cons ontime)).move hrun hm ontime

/-- The identifiers are those of members of the instance that the claim names. -/
def KnownMembers (s : Store) (c : ExecutionClaim) (memberIds : List UUID) : Prop :=
  ∀ mid ∈ memberIds, mid < s.nextId ∧
    ∀ m, s.members.lookup mid = some m → c.resourceId = some m.instanceId

theorem Moved.knownMembers (hrun : Run w t) (hm : Moved w t what w') {c : ExecutionClaim}
    {memberIds : List UUID} (hk : KnownMembers w.store c memberIds) :
    KnownMembers w'.store c memberIds := by
  intro mid hmid
  obtain ⟨hlt, hown⟩ := hk mid hmid
  refine ⟨Nat.lt_of_lt_of_le hlt (hm.nextId_le hrun.sound), fun m' row' => ?_⟩
  rcases hm.store_cases with heq | ⟨now, heq⟩ | ⟨r, -, hr⟩ | ⟨worker, β, tr, a, -, hg, hc⟩
  · exact hown m' (heq ▸ row')
  · exact hown m' (by simpa [heq] using row')
  · rcases hr.member_cases row' with ⟨hid, -⟩ | ⟨m, row, hinst, -⟩
    · exact absurd hlt (hid ▸ Nat.lt_irrefl _)
    · exact hinst ▸ hown m row
  · obtain ⟨m, row, heq, -⟩ := hc.member_origin hg row'
    rw [heq]
    exact hown m row

theorem Run.knownMembers (h : Run w t) : ∀ worker c memberIds,
    ClaimsMembers (workerHistory worker t) c memberIds → KnownMembers w.store c memberIds := by
  refine h.induction (motive := fun w t => ∀ worker c memberIds,
    ClaimsMembers (workerHistory worker t) c memberIds → KnownMembers w.store c memberIds) ?start ?move
  case start =>
    rintro worker c memberIds (⟨claimed, hwrote, -⟩ | ⟨claimed, hwrote, -⟩)
    · cases hwrote
    · cases hwrote
  case move =>
    intro w t what w' hrun hm ih worker c memberIds hclaims
    refine hm.knownMembers hrun ?_
    have known : ∀ {id : UUID}, c.resourceId = some id → (∀ mid ∈ memberIds,
        ∃ m, w.store.members.lookup mid = some m ∧ m.instanceId = id) →
        KnownMembers w.store c memberIds := by
      intro id resource hrows mid hmid
      obtain ⟨m, hrow, hown⟩ := hrows mid hmid
      refine ⟨(hrun.sound.grounded.members mid m hrow).1, fun m' hrow' => ?_⟩
      obtain rfl := Option.some.inj (hrow.symm.trans hrow')
      exact hown ▸ resource
    rcases hclaims with ⟨claimed, hwrote, rfl⟩ | ⟨claimed, hwrote, rfl⟩
    · rcases mem_workerHistory_cons.mp hwrote with rfl | hold
      · obtain ⟨id, resource, -, hrows, -⟩ := hm.wrote.2.claimsRows
        exact known resource hrows
      · exact ih worker c _ (.inl ⟨claimed, hold, rfl⟩)
    · rcases mem_workerHistory_cons.mp hwrote with rfl | hold
      · obtain ⟨id, resource, hrows, -⟩ := hm.wrote.2.claimsRows
        exact known resource hrows
      · exact ih worker c _ (.inr ⟨claimed, hold, rfl⟩)

theorem Run.claims_on_instance (h : Run w t) {worker : Nat} {c : ExecutionClaim}
    {memberIds : List UUID} (held : Holds (workerHistory worker t) c)
    (own : ClaimsMembers (workerHistory worker t) c memberIds) :
    c.step.resourceType = some .instance := by
  rcases own with ⟨claimed, hwrote, -⟩ | ⟨claimed, hwrote, -⟩
  · obtain ⟨v, rest, hentry, -⟩ := held.before hwrote (ne_claimEvent rfl c)
    obtain ⟨-, ⟨v', hm⟩, -⟩ := h.entry hentry
    rw [hm.wrote.1.2]
    rfl
  · obtain ⟨v, rest, hentry, -⟩ := held.before hwrote (ne_claimEvent rfl c)
    obtain ⟨-, ⟨v', hm⟩, -⟩ := h.entry hentry
    rw [hm.wrote.1.2]
    rfl

/-- After its clean-up has claimed the members of an instance, no other is worked on until the
attempt ends. -/
theorem Run.allClaimed (h : Run w t) (ontime : timely t = true) : ∀ worker c id claimed,
    Holds (workerHistory worker t) c → w.store.Attends c id →
    Wrote (workerHistory worker t) (.claimCleanup c) claimed →
    w.store.AllClaimed id claimed.memberIds := by
  refine h.induction (motive := fun w t => timely t = true → ∀ worker c id claimed,
    Holds (workerHistory worker t) c → w.store.Attends c id →
    Wrote (workerHistory worker t) (.claimCleanup c) claimed →
    w.store.AllClaimed id claimed.memberIds) ?start ?move ontime
  case start => exact fun _ worker c _ _ held => absurd held (not_holds_nil c)
  case move =>
    intro w t what w' hrun hm ih ontime worker c id claimed held attends hwrote
    rcases mem_workerHistory_cons.mp hwrote with rfl | hold
    · obtain ⟨id', resource, -, hall⟩ := hm.wrote.2.claimsRows
      obtain rfl := Option.some.inj (resource.symm.trans attends.resource)
      exact hall
    · obtain ⟨hheld, hattends⟩ := hm.attended_before hrun held attends hold
      have hall := ih (timely_of_cons ontime) worker c id claimed hheld hattends hold
      intro mid m' row' hown hworking
      rcases hm.store_cases with heq | ⟨now, heq⟩ | ⟨r, -, hr⟩ | ⟨worker', β, tr, a, hwhat, hg, hc⟩
      · exact hall mid m' (heq ▸ row') hown hworking
      · exact hall mid m' (by simpa [heq] using row') hown hworking
      · have waits : m'.status ≠ .pending := by
          rcases hworking with h | h <;> rw [h] <;> decide
        rcases hr.member_cases row' with ⟨-, hpending⟩ | ⟨m, row, -, -, rfl | hpending⟩
        · exact absurd hpending waits
        · exact hall mid m' row hown hworking
        · exact absurd hpending waits
      · obtain ⟨m, row, heq, hturned⟩ := hc.member_origin hg row'
        rw [heq] at hown
        have hbefore := hall mid m row hown
        unfold Member.Working at hworking
        generalize m'.status = status at hturned hworking
        cases hturned with
        | same => exact hbefore hworking
        | claimed claims resource =>
            exact absurd (hown ▸ resource) (hrun.unclaimed_by_others hm ontime hheld hattends hold
              (ne_claimEvent rfl c) _ _ _ _ _ hwhat claims)
        | resumed working => exact ⟨rfl, (hbefore working).2⟩
        | @released c' memberIds status held' own owned ended member running =>
            -- The attempt that lets go of the member is this one, which would have ended.
            have resource := ((hrun.knownMembers _ _ _ own) mid member).2 m row
            have attends' := hrun.attends_instance held' (hrun.claims_on_instance held' own)
              (hown ▸ resource) owned
            obtain ⟨-, rfl⟩ := hrun.attends_unique hheld held' hattends attends'
            have howned := attends.owned
            rw [ended] at howned
            cases howned
        | finished => rcases hworking with h | h <;> cases h

theorem World.committed {reply : Reply} {β : Type} {tr : Transaction β} {a : β}
    (h : w.perform reply (.transaction tr) = (.ok a, w')) :
    ∃ token, w.store.transact token tr = .ok (a, w'.store) := by
  simp only [perform] at h
  split at h
  · cases h
  · split at h
    · rename_i hcommit
      cases h
      exact ⟨_, hcommit⟩
    · cases h

theorem Moved.finalized {worker : Nat} {c : ExecutionClaim} {memberIds : List UUID} {name : String}
    {answer : Store.UpdateResult} (hm : Moved w t (.called worker
      ⟨.transaction (.finalizeUpdate c memberIds name), .ok answer⟩) w') :
    w.store.finalizeUpdate c memberIds name = .ok (answer, w'.store) := by
  cases hm with
  | called _ _ _ issued =>
      obtain ⟨reply, hperformed⟩ := issued
      obtain ⟨_, hcommit⟩ := World.committed hperformed
      exact hcommit

theorem Store.Aligned.finalised {s s' : Store} {id : UUID} {listed : List (String × MemberRole)}
    {memberIds : List UUID} {answer : Store.UpdateResult} (ha : s.Aligned id listed)
    (hall : s.AllClaimed id memberIds) (departing : s.Departing)
    (members : s'.members = (s.finalizeMembers id memberIds).members)
    (converged : answer = .success →
      (∀ mid m, s'.members.lookup mid = some m → m.instanceId = id → m.status ≠ .pending) ∧
      ∃ i', s'.instances.lookup id = some i' ∧ i'.status = .success)
    (within : Table.Within Member.terms s.members s'.members) :
    FinalisedAs s s' answer id listed := by
  have hrow : ∀ {mid : UUID} {m : Member}, s.members.lookup mid = some m →
      s'.members.lookup mid =
        if mid ∈ memberIds ∧ m.instanceId = id ∧ m.status = .running then
          if m.action = .deleting then none else some { m with status := .success }
        else some m := fun row => by rw [members, Store.lookup_finalizeMembers row]
  -- A member that is left has not waited, and stays.
  have left : ∀ {mid : UUID} {m' : Member}, answer = .success → s'.members.lookup mid = some m' →
      m'.instanceId = id → m'.status = .success ∧ ∃ m, s.members.lookup mid = some m ∧
        m.terms = m'.terms ∧ m.status ≠ .pending ∧ m.action ≠ .deleting := by
    intro mid m' hsuccess row' hown
    obtain ⟨m, row, hterms⟩ := within mid m' row'
    have hown' : m.instanceId = id := (congrArg Prod.fst hterms).symm.trans hown
    have hwaits := (converged hsuccess).1 mid m' row' hown
    rw [hrow row] at row'
    split at row'
    · rename_i hdone
      split at row'
      · cases row'
      · rename_i halive
        cases row'
        exact ⟨rfl, m, row, rfl, by rw [hdone.2.2]; decide, halive⟩
    · rename_i hdone
      obtain rfl : m = m' := Option.some.inj row'
      have hidle : ¬m.Working := fun hworking =>
        hdone ⟨(hall mid m row hown hworking).2, hown, (hall mid m row hown hworking).1⟩
      have hsettled : m.status = .success := by
        unfold Member.Working at hidle
        revert hidle hwaits
        cases m.status <;> simp
      exact ⟨hsettled, m, row, rfl, hwaits, fun hdel => departing mid m row hdel hsettled⟩
  refine ⟨fun hsuccess => ⟨(converged hsuccess).2, fun mid m' row' hown =>
    (left hsuccess row' hown).1⟩, fun hsuccess username role => ⟨fun hlisted => ?_, ?_⟩, ?_⟩
  · obtain ⟨mid, m, row, hown, huser, hterms⟩ := ha.known username role hlisted
    have hkept : ∃ m', s'.members.lookup mid = some m' ∧ m'.terms = m.terms ∧
        (m.status = .pending → m'.status = .pending) := by
      rw [hrow row]
      split
      · rename_i hdone
        have halive : m.action ≠ .deleting := by
          rcases hterms with hpending | ⟨-, halive⟩
          · cases hpending.symm.trans hdone.2.2
          · exact halive
        rw [if_neg halive]
        exact ⟨_, rfl, rfl, fun hpending => by cases hpending.symm.trans hdone.2.2⟩
      · exact ⟨m, rfl, rfl, fun h => h⟩
    obtain ⟨m', row', hsame, hwaits⟩ := hkept
    simp only [Member.terms, Prod.mk.injEq] at hsame
    obtain ⟨hinst, huser', hrole, -⟩ := hsame
    refine ⟨mid, m', row', hinst.trans hown, huser'.trans huser, hrole.trans ?_⟩
    rcases hterms with hpending | ⟨hrole, -⟩
    · exact absurd (hwaits hpending) ((converged hsuccess).1 mid m' row' (hinst.trans hown))
    · exact hrole
  · rintro ⟨mid, m', row', hown, rfl, rfl⟩
    obtain ⟨-, m, row, hterms, hwaits, halive⟩ := left hsuccess row' hown
    simp only [Member.terms, Prod.mk.injEq] at hterms
    obtain ⟨hinst, huser, hrole, -⟩ := hterms
    rw [← huser, ← hrole]
    exact ha.present mid m row (hinst.trans hown) hwaits halive
  · intro mid m row hgone
    rw [hrow row] at hgone
    split at hgone
    · rename_i hdone
      split at hgone
      · rename_i hdel
        exact ⟨hdone.2.1, ha.absent mid m row hdone.2.1 (by rw [hdone.2.2]; decide) hdel⟩
      · cases hgone
    · cases hgone

/-- What the run has come to when an update in time ends. -/
theorem Run.update_ends (h : Run w t) {worker : Nat} {c : ExecutionClaim} {memberIds : List UUID}
    {name : String} {answer : Store.UpdateResult} (hm : Moved w t (.called worker
      ⟨.transaction (.finalizeUpdate c memberIds name), .ok answer⟩) w')
    (ontime : timely t = true) (ended : answer ≠ .noop) :
    ∃ job id i listed, w.store.ownedExecution c = some job ∧
      w.store.ownedInstance job = some (id, i) ∧ w.store.Attends c id ∧
      lastReconciled id t = some listed ∧ w.store.Aligned id listed ∧
      w.store.AllClaimed id memberIds := by
  obtain ⟨⟨held, hstep, claimed, hwrote, rfl, -⟩, hc⟩ := hm.wrote
  obtain ⟨job, id, i, owned, hrow, -⟩ := hc.finalisesRows ended
  obtain ⟨htype, hid, -⟩ := Store.ownedInstance_eq_some.mp hrow
  obtain ⟨hctype, hcid⟩ := h.owned_resource held owned htype
  have attends := h.attends held hctype (hcid.trans hid) (by simp [owned])
  obtain ⟨i₀, hi₀, hat⟩ := attends.row
  obtain ⟨listed, hlisted, haligned⟩ := (h.membersInOrder ontime).advanced id i₀ hi₀ (hstep ▸ hat)
  exact ⟨job, id, i, listed, owned, hrow, attends, hlisted, haligned,
    h.allClaimed ontime worker c id claimed held attends hwrote⟩

end Order

/-- No member change is finalised without being reconciled, in every run in which members are
claimed and reconciled in time. -/
theorem member_changes_are_reconciled (steps : List Step)
    (ontime : timely (run steps).trace = true) : MembersReconciled (run steps).trace := by
  intro v worker c memberIds name answer rest hentry hanswer
  obtain ⟨hv, ⟨v', hm⟩, -⟩ := (run_reaches steps).entry hentry
  have hearlier : timely rest = true := timely_of_cons (timely_of_suffix ontime hentry)
  obtain ⟨job, id, i, listed, owned, hrow, attends, hlisted, haligned, hall⟩ :=
    hv.update_ends hm hearlier hanswer
  have hc := hm.wrote.2
  obtain ⟨job', id', i', owned', hrow', members, converged⟩ := hc.finalisesRows hanswer
  cases owned.symm.trans owned'
  cases hrow.symm.trans hrow'
  exact ⟨id, v'.store, listed, attends.resource, hm.finalized, hlisted,
    haligned.finalised hall hv.departing members converged (Narrowed.committed hc).members⟩

theorem joined_members_are_reconciled : MembersReconciled (run joining).trace :=
  member_changes_are_reconciled joining (by decide +kernel)

/-- Worker 3 is given the update of member 3 and stops; worker 5 takes the job over and
reconciles. Member 5 joins, and worker 6 claims the members for the clean-up. Then worker 3
goes on and claims member 5, and worker 6 lists the accounts. -/
def claimingLate : List Step :=
  provisioning ++
  [requesting (.createMember 1 "m1" .user), delivering .instanceUpdateStep01 4] ++
  answering 3 [.done] ++ [.change (.tick 1000), .spawn (.retryJobExecutions 100)] ++
  answering 4 [.done, .done, .done, .flag true] ++ [delivering .instanceUpdateStep01 4] ++
  answering 5 [.done, .done, .done, .done, .outcome .completed "app"] ++
  [requesting (.createMember 1 "m2" .user)] ++ answering 5 [.done, .flag true] ++
  [delivering .instanceUpdateStep02 4] ++ answering 6 [.done, .done] ++ answering 3 [.done] ++
  answering 6 [.done, .flag true, .done, .done, .names ["m1"]]

def finalisation : WorkerEvent → Option (ExecutionClaim × List UUID × String × Store.UpdateResult)
  | ⟨.transaction (.finalizeUpdate c memberIds name), .ok answer⟩ => some (c, memberIds, name, answer)
  | _ => none

theorem finalisation_eq_some {event : WorkerEvent} {c : ExecutionClaim} {memberIds : List UUID}
    {name : String} {answer : Store.UpdateResult}
    (h : finalisation event = some (c, memberIds, name, answer)) :
    event = ⟨.transaction (.finalizeUpdate c memberIds name), .ok answer⟩ := by
  unfold finalisation at h
  split at h
  · simp only [Option.some.injEq, Prod.mk.injEq] at h
    obtain ⟨rfl, rfl, rfl, rfl⟩ := h
    rfl
  · cases h

def lastFinalisation : Trace → Option (ExecutionClaim × List UUID × String × Store.UpdateResult)
  | ⟨_, .called _ event⟩ :: _ => finalisation event
  | _ => none

/-- An update succeeds while a member that Argo CD was not given is running. -/
theorem late_claim_is_finalised : ¬∀ steps : List Step, MembersReconciled (run steps).trace := by
  intro h
  have hacting : acting 6 (run claimingLate) = true := by decide +kernel
  obtain ⟨event, htrace⟩ := run_acting hacting .done
  let c : ExecutionClaim :=
    ⟨4, .registered .instanceUpdateStep02, .instanceUpdateStep02, 3, some .instance, some 1⟩
  have hlast : lastFinalisation (run (claimingLate ++ [.act 6 .done])).trace =
      some (c, [3], "app-k3v9x0q7m2ab", .success) := by decide +kernel
  have hrunning : ((((run claimingLate).world.store.finalizeUpdate c [3] "app-k3v9x0q7m2ab").toOption.bind
      fun r => r.2.members.lookup 5).map fun m => (m.instanceId, m.status)) =
      some (1, .running) := by decide +kernel
  rw [htrace] at hlast
  obtain rfl := finalisation_eq_some hlast
  obtain ⟨id, s', listed, hid, hfinal, -, hdone⟩ :=
    h _ _ 6 c [3] "app-k3v9x0q7m2ab" .success _ ⟨[], htrace.symm⟩ (by decide)
  obtain rfl : id = 1 := (Option.some.inj hid).symm
  rw [hfinal] at hrunning
  obtain ⟨m, hm, hstatus⟩ := Option.map_eq_some_iff.mp hrunning
  obtain ⟨hown, hrunning⟩ := Prod.mk.inj hstatus
  cases hrunning.symm.trans ((hdone.settled rfl).2 5 m hm hown)

end CoderManager
