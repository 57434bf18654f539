import CoderManager.Results.MemberChanges

/-!
# Updates lose no member change

An update may end while members wait, because changes were requested after it had
claimed its own. Its end settles what it claimed, leaves the rest alone and files the
next update in the same transaction.
-/
namespace CoderManager
open Programs Tables

structure Store.FilesUpdate (s : Store) (id jobId : UUID) : Prop where
  lifecycle : s.lifecycle .instance id =
    some ⟨.updating, .pending, some jobId, some .instanceUpdateStep01⟩
  job : ∃ job, s.jobs.lookup jobId = some job ∧ job.name = .instanceUpdate ∧
    job.status = .pending ∧ job.step = .instanceUpdateStep01 ∧
    job.lease.owner = some (.instance, some id)

/-- What the end of an update does to members: it settles those that it was given and
that were reconciled, and leaves all others to the next one. -/
structure KeepsChanges (before after : Store) (answer : Store.UpdateResult) (id : UUID)
    (listed : List (String × MemberRole)) : Prop where
  settled : ∀ mid m m', before.members.lookup mid = some m → after.members.lookup mid = some m' →
    m' = m ∨ (m' = { m with status := .success } ∧ m.instanceId = id ∧ m.status = .running ∧
      m.action ≠ .deleting ∧ (m.username, m.role) ∈ listed)
  removed : ∀ mid m, before.members.lookup mid = some m → after.members.lookup mid = none →
    m.instanceId = id ∧ m.status = .running ∧ m.action = .deleting ∧
      ∀ role, (m.username, role) ∉ listed
  invents : ∀ mid, before.members.lookup mid = none → after.members.lookup mid = none
  ended : answer = .success →
    ∀ mid m, after.members.lookup mid = some m → m.instanceId = id → m.status ≠ .pending
  next : ∀ jobId, answer = .pending jobId → after.FilesUpdate id jobId ∧
    ∃ mid m, before.members.lookup mid = some m ∧ after.members.lookup mid = some m ∧
      m.instanceId = id ∧ m.status = .pending

/-- The end of every update of a run keeps the changes that came meanwhile. -/
def ChangesKept (t : Trace) : Prop :=
  ∀ v worker c memberIds name answer rest, ⟨v, .called worker
      ⟨.transaction (.finalizeUpdate c memberIds name), .ok answer⟩⟩ :: rest <:+ t →
    answer ≠ .noop → ∃ id s' listed, c.resourceId = some id ∧
      v.store.finalizeUpdate c memberIds name = .ok (answer, s') ∧
      lastReconciled id rest = some listed ∧ KeepsChanges v.store s' answer id listed

variable {s s' : Store} {id : UUID}

/-- The update that follows one that ends while members wait. -/
def FilesNext (s s' : Store) : {β : Type} → Transaction β → β → Prop
  | _, .finalizeUpdate c _ _, .pending jobId => ∃ job id i, s.ownedExecution c = some job ∧
      s.ownedInstance job = some (id, i) ∧ s'.FilesUpdate id jobId ∧
      ∃ mid m, s'.members.lookup mid = some m ∧ m.instanceId = id ∧ m.status = .pending
  | _, _, _ => True

open Store in
theorem Committed.filesNext {β : Type} {t : Transaction β} {a : β} (hc : Committed s t a s') :
    FilesNext s s' t a := by
  cases hc with
  | @finalizeAgain c memberIds name job id i s₁ owned row final late =>
      refine ⟨job, id, i, owned, row, ⟨?_, ?_⟩, ?_⟩
      · obtain ⟨-, -, hi⟩ := ownedInstance_eq_some.mp row
        have hthere : (s₁.lifecycle .instance id).isSome = true := by
          simp [final, settleExecution, lifecycle_modifyResource, lifecycle_finalizeMembers,
            lifecycle_instance hi]
          split <;> rfl
        obtain ⟨l, hl⟩ := Option.isSome_iff_exists.mp hthere
        rw [lifecycle_stageJob, if_pos ⟨rfl, rfl⟩, hl]
        rfl
      · exact ⟨_, Table.lookup_insert_self _ _ _, rfl, rfl, rfl, rfl⟩
      · rw [members_stageJob]
        exact late
  | _ => trivial

/-- The end of an update on members that agree with what was reconciled. -/
theorem Store.Aligned.keepsChanges {listed : List (String × MemberRole)} {memberIds : List UUID}
    {answer : Store.UpdateResult} (ha : s.Aligned id listed)
    (members : s'.members = (s.finalizeMembers id memberIds).members)
    (within : Table.Within Member.terms s.members s'.members)
    (converged : answer = .success →
      ∀ mid m, s'.members.lookup mid = some m → m.instanceId = id → m.status ≠ .pending)
    (filed : ∀ jobId, answer = .pending jobId → s'.FilesUpdate id jobId ∧
      ∃ mid m, s'.members.lookup mid = some m ∧ m.instanceId = id ∧ m.status = .pending) :
    KeepsChanges s s' answer id listed := by
  have hrow : ∀ {mid : UUID} {m : Member}, s.members.lookup mid = some m →
      s'.members.lookup mid =
        if mid ∈ memberIds ∧ m.instanceId = id ∧ m.status = .running then
          if m.action = .deleting then none else some { m with status := .success }
        else some m := fun row => by rw [members, Store.lookup_finalizeMembers row]
  have hsettled : ∀ mid m m', s.members.lookup mid = some m → s'.members.lookup mid = some m' →
      m' = m ∨ (m' = { m with status := .success } ∧ m.instanceId = id ∧ m.status = .running ∧
        m.action ≠ .deleting ∧ (m.username, m.role) ∈ listed) := by
    intro mid m m' row row'
    rw [hrow row] at row'
    split at row'
    · rename_i hdone
      obtain ⟨-, hown, hrunning⟩ := hdone
      split at row'
      · cases row'
      · rename_i halive
        cases row'
        exact .inr ⟨rfl, hown, hrunning, halive,
          ha.present mid m row hown (by rw [hrunning]; decide) halive⟩
    · cases row'
      exact .inl rfl
  constructor
  · exact hsettled
  · intro mid m row hgone
    rw [hrow row] at hgone
    split at hgone
    · rename_i hdone
      obtain ⟨-, hown, hrunning⟩ := hdone
      split at hgone
      · rename_i hdel
        exact ⟨hown, hrunning, hdel, ha.absent mid m row hown (by rw [hrunning]; decide) hdel⟩
      · cases hgone
    · cases hgone
  · intro mid hnone
    cases hrow' : s'.members.lookup mid with
    | none => rfl
    | some m' =>
        obtain ⟨m, row, -⟩ := within mid m' hrow'
        cases hnone.symm.trans row
  · exact converged
  · intro jobId hanswer
    obtain ⟨hfiled, mid, m', row', hown, hpending⟩ := filed jobId hanswer
    obtain ⟨m, row, -⟩ := within mid m' row'
    refine ⟨hfiled, mid, m', ?_, row', hown, hpending⟩
    rcases hsettled mid m m' row row' with rfl | ⟨rfl, -⟩
    · exact row
    · cases hpending

/-- In every run in which members are claimed and reconciled in time, no update loses a member
change: its end settles what was reconciled and files the next update for what waits. -/
theorem updates_lose_no_change (steps : List Step) (ontime : timely (run steps).trace = true) :
    ChangesKept (run steps).trace := by
  intro v worker c memberIds name answer rest hentry hanswer
  obtain ⟨hv, ⟨v', hm⟩, -⟩ := (run_reaches steps).entry hentry
  have hearlier : timely rest = true := timely_of_cons (timely_of_suffix ontime hentry)
  obtain ⟨job, id, i, listed, owned, hrow, attends, hlisted, haligned, -⟩ :=
    hv.update_ends hm hearlier hanswer
  have hc := hm.wrote.2
  obtain ⟨job', id', i', owned', hrow', members, converged⟩ := hc.finalisesRows hanswer
  cases owned.symm.trans owned'
  cases hrow.symm.trans hrow'
  refine ⟨id, v'.store, listed, attends.resource, hm.finalized, hlisted,
    haligned.keepsChanges members (Narrowed.committed hc).members
      (fun hsuccess => (converged hsuccess).1) ?_⟩
  rintro jobId rfl
  obtain ⟨job', id', i', owned', hrow', hfiled, hwaits⟩ := hc.filesNext
  cases owned.symm.trans owned'
  cases hrow.symm.trans hrow'
  exact ⟨hfiled, hwaits⟩

/-- Member 5 is requested when the update for member 3 has claimed its members. -/
def coalescing : List Step :=
  provisioning ++
  [requesting (.createMember 1 "m1" .user), delivering .instanceUpdateStep01 4] ++
  answering 3 [.done, .done] ++ [requesting (.createMember 1 "m2" .user)] ++
  answering 3 [.done, .done, .outcome .completed "app", .done, .flag true] ++
  [delivering .instanceUpdateStep02 4] ++
  answering 4 [.done, .done, .done, .flag true, .done, .done, .names ["m1"], .done]

/-- The update for member 5 is filed when that for member 3 ends. -/
theorem coalesced_update_loses_no_change :
    ChangesKept (run coalescing).trace ∧
      (lastFinalisation (run coalescing).trace).map (fun r => r.2.2.2) = some (.pending 6) :=
  ⟨updates_lose_no_change coalescing (by decide +kernel), by decide +kernel⟩

end CoderManager
