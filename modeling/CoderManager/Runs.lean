import CoderManager.Discipline.Bodies
import CoderManager.Refinement.Steps

/-!
# Runs of the manager

Every run keeps the jobs and the rows of the database in order, so that every
worker gets the answers it relies on and stays within the discipline. Claims
about runs are proved by `Run.induction`, over what one move may do.
-/
namespace CoderManager
open Programs Leases

abbrev Trace := List (Entry Op WorkerError World Change)

abbrev WhatHappened := Happening Op WorkerError Change

/-- One worker's own operations, newest first. -/
abbrev workerHistory (worker : Nat) (t : Trace) : WorkerHistory := history worker t

/-- What one operation of a worker answers and leaves behind. -/
inductive Performed (w : World) : {β : Type} → Op β → Except WorkerError β → World → Prop
  | answered {β : Type} {q : Query β} {answer : Except WorkerError β}
      (read : answer = .error .databaseError ∨ answer = w.store.answer q) :
      Performed w (.query q) answer w
  | rolledBack {β : Type} {t : Transaction β} {e : WorkerError} :
      Performed w (.transaction t) (.error e) w
  | committed {β : Type} {t : Transaction β} {a : β} {s : Store}
      (commit : Committed w.store t a s) :
      Performed w (.transaction t) (.ok a) ⟨s⟩
  | requested {β : Type} {c : Call β} {reply : Reply} {answer : Except WorkerError β}
      (sent : c.answer reply = answer) : Performed w (.call c) answer w

theorem World.performed (w : World) (reply : Reply) {β : Type} (o : Op β) :
    Performed w o (w.perform reply o).1 (w.perform reply o).2 := by
  cases o with
  | query q =>
      unfold World.perform
      split
      · exact .answered (.inl rfl)
      · exact .answered (.inr rfl)
  | transaction t =>
      unfold World.perform
      split
      · exact .rolledBack
      · dsimp only
        split
        · rename_i ha
          exact .committed (Store.committed ha)
        · exact .rolledBack
  | call c => exact .requested rfl

theorem World.perform_query (w : World) (reply : Reply) {β : Type} (q : Query β) :
    (w.perform reply (.query q)).2 = w := by
  unfold World.perform
  split <;> rfl

theorem World.perform_reads (w : World) {reply : Reply} {β : Type} (q : Query β)
    (hfail : ∀ e, reply ≠ .fail e) : w.perform reply (.query q) = (w.store.answer q, w) := by
  cases reply with
  | fail e => exact absurd rfl (hfail e)
  | _ => rfl

theorem World.perform_commits {w : World} {β : Type} {t : Transaction β} {a : β} {s : Store}
    {reply : Reply} (commits : ∀ token, w.store.transact token t = .ok (a, s))
    (hfail : ∀ e, reply ≠ .fail e) :
    w.perform reply (.transaction t) = (.ok a, ⟨s⟩) := by
  cases reply with
  | fail e => exact absurd rfl (hfail e)
  | _ => simp only [World.perform, commits]

/-- What a change outside the workers leaves behind. -/
inductive Changed (w : World) : Change → World → Prop
  | accepted {r : Request} {s : Store} (accepted : Accepted w.store r s) :
      Changed w (.request r) ⟨s⟩
  | refused {r : Request} : Changed w (.request r) w
  | tick {elapsed : Nat} :
      Changed w (.tick elapsed) ⟨{ w.store with now := w.store.now + elapsed }⟩

theorem World.changed (w : World) (e : Change) : Changed w e (w.react e) := by
  cases e with
  | request r =>
      simp only [World.react]
      split
      · rename_i hr
        exact .accepted (Request.accepted hr)
      · exact .refused
  | tick elapsed => exact .tick

/-- Jobs and lifecycles agree, and no row refers to a row that is gone. -/
structure Sound (s : Store) : Prop where
  ledger : Consistent catalogue s.ledger
  grounded : s.Grounded

theorem Sound.current_status {s : Store} (hs : Sound s) {type : ResourceType} {id j : UUID}
    {r : Lifecycle} {job : JobExecution} (row : s.lifecycle type id = some r)
    (current : r.jobId = some j) (hjob : s.jobs.lookup j = some job) : job.status = r.status := by
  obtain ⟨b, hb, -, hstatus⟩ := hs.ledger.current (type, some id) r j (by simpa [Store.ledger] using row)
    current
  have hlease : job.lease = b := by simpa [Store.ledger, hjob] using hb
  exact (congrArg Job.status hlease).trans hstatus

theorem Store.ledger_empty :
    Store.empty.ledger = { jobs := fun _ => none, owners := fun _ => none, used := ∅ } := by
  refine Ledger.ext rfl ?_ ?_
  · funext key
    obtain ⟨type, id⟩ := key
    cases id with
    | none => rfl
    | some id => cases type <;> rfl
  · ext id
    exact iff_of_false (Nat.not_lt_zero id) (Set.notMem_empty id)

theorem Sound.empty : Sound World.empty.store :=
  ⟨Store.ledger_empty ▸ Consistent.empty ∅, Store.Grounded.empty⟩

theorem Accepted.sound {s s' : Store} {r : Request} (h : Accepted s r s') (hs : Sound s) :
    Sound s' :=
  ⟨hs.ledger.steps (h.steps hs.ledger hs.grounded), h.grounded hs.grounded⟩

theorem Committed.sound {s s' : Store} {β : Type} {t : Transaction β} {a : β} {h : WorkerHistory}
    (hc : Committed s t a s') (hg : Discipline.transaction h t) (hs : Sound s) : Sound s' :=
  ⟨hs.ledger.steps (hc.steps hg hs.ledger), hc.grounded hg hs.ledger hs.grounded⟩

theorem Performed.steps {w w' : World} {β : Type} {o : Op β} {answer : Except WorkerError β}
    {h : WorkerHistory} (hp : Performed w o answer w') (hg : Discipline.guard h o)
    (hs : Sound w.store) : Steps catalogue w.store.ledger w'.store.ledger := by
  cases hp with
  | answered | rolledBack | requested => exact .refl
  | committed commit => exact commit.steps hg hs.ledger

theorem Changed.steps {w w' : World} {e : Change} (hc : Changed w e w') (hs : Sound w.store) :
    Steps catalogue w.store.ledger w'.store.ledger := by
  cases hc with
  | accepted accepted => exact accepted.steps hs.ledger hs.grounded
  | refused | tick => exact .refl

theorem Performed.sound {w w' : World} {β : Type} {o : Op β} {answer : Except WorkerError β}
    {h : WorkerHistory} (hp : Performed w o answer w') (hg : Discipline.guard h o)
    (hs : Sound w.store) : Sound w'.store := by
  cases hp with
  | answered | rolledBack | requested => exact hs
  | committed commit => exact commit.sound hg hs

theorem Changed.sound {w w' : World} {e : Change} (hc : Changed w e w') (hs : Sound w.store) :
    Sound w'.store := by
  cases hc with
  | accepted accepted => exact accepted.sound hs
  | refused => exact hs
  | tick => exact ⟨hs.ledger, hs.grounded.of_eq (Nat.le_refl _) rfl rfl rfl rfl rfl⟩

theorem applicationName_ne_empty (applicationPrefix slug : String) (attachedName : Option String) :
    applicationName applicationPrefix slug attachedName ≠ "" := by
  have hdash : applicationPrefix ++ "-" ++ slug ≠ "" := by
    intro h
    have := congrArg String.length h
    simp [String.length_append] at this
  unfold applicationName
  split
  · split
    · exact hdash
    · assumption
  · exact hdash

theorem Call.reconcile_named {reply : Reply} {instanceId : UUID} {slug : String}
    {attachedName : Option String} {members : List (String × MemberRole)}
    {helmValues : InstanceHelmValues} {result : ArgoCdReconcileResult}
    (h : (Call.reconcileInstanceApplication instanceId slug attachedName members helmValues).answer
      reply = .ok result) :
    ∃ applicationPrefix,
      result.applicationName = applicationName applicationPrefix slug attachedName := by
  cases reply with
  | outcome status applicationPrefix =>
      cases h
      exact ⟨applicationPrefix, rfl⟩
  | _ => cases h

theorem Store.answers_query {s : Store} {β : Type} (q : Query β) :
    Discipline.answers (.query q) (s.answer q) := by
  cases q with
  | instanceSnapshot resourceId missing =>
      cases h : s.answer (.instanceSnapshot resourceId missing) with
      | error e => trivial
      | ok snapshot =>
          simp only [answer, instanceSnapshot, bind_eq_ok, pure_eq_ok, found_eq_ok] at h
          obtain ⟨⟨id, i⟩, hrow, rfl⟩ := h
          exact (claimedInstance_eq_some.mp hrow).1
  | storedAdminPassword instanceId =>
      cases h : s.answer (.storedAdminPassword instanceId) with
      | error e => trivial
      | ok credentials =>
          simp only [answer, storedAdminPassword, bind_eq_ok, found_eq_ok] at h
          obtain ⟨i, -, h⟩ := h
          split at h
          · rw [pure_eq_ok] at h
            subst h
            trivial
          · simp only [bind_eq_ok, pure_eq_ok] at h
            obtain ⟨password, -, rfl⟩ := h
            exact rfl
  | now | retryableJobIds | managedDatabaseTarget | storedKubeconfig | observedInstances
  | templateSourceSnapshot | assignmentTemplateId | stableAssignmentIds | removalSnapshot
  | workspaceRemoteSnapshot => unfold Discipline.answers; trivial

theorem Committed.answers {s s' : Store} {β : Type} {t : Transaction β} {a : β}
    (hc : Committed s t a s') (hl : Consistent catalogue s.ledger) :
    Discipline.answers (.transaction t) (.ok a) := by
  -- The last creation step belongs to no other workflow.
  have creates : ∀ {name : JobName}, .instanceCreateStep03 ∈ name.steps →
      (name == .instanceUpdate) = false := by
    intro name
    cases name <;> decide
  cases hc with
  | @claimExecution jobId job row =>
      obtain ⟨-, htask⟩ := hl.stage jobId job.lease (by simp [Store.ledger, row])
      exact ⟨rfl, rfl, htask.symm⟩
  | bootstrapKept owned _ update =>
      exact fun step => update.trans (creates (step ▸ Store.owned_mem_steps hl owned))
  | bootstrapDrawn owned _ update =>
      exact fun step => update.trans (creates (step ▸ Store.owned_mem_steps hl owned))
  | _ => trivial

theorem Performed.answers {w w' : World} {β : Type} {o : Op β} {answer : Except WorkerError β}
    (hp : Performed w o answer w') (hs : Sound w.store) : Discipline.answers o answer := by
  cases hp with
  | @answered q _ read =>
      rcases read with rfl | rfl
      · cases q <;> trivial
      · exact Store.answers_query q
  | @rolledBack t e => cases t <;> trivial
  | committed commit => exact commit.answers hs.ledger
  | @requested c reply _ sent =>
      cases c with
      | reconcileInstanceApplication =>
          cases answer with
          | error e => trivial
          | ok result =>
              obtain ⟨applicationPrefix, hname⟩ := Call.reconcile_named sent
              change result.applicationName ≠ ""
              rw [hname]
              exact applicationName_ne_empty _ _ _
      | _ => trivial

theorem manager_supports : Supports manager discipline (fun w => Sound w.store) where
  called := fun _ o r w hs hg => (w.performed r o).sound hg hs
  changed := fun e w hs => (w.changed e).sound hs
  answers := fun o r w hs => (w.performed r o).answers hs

/-- The worlds and traces of runs that keep the discipline. -/
abbrev Run : World → Trace → Prop := Reaches manager discipline .empty

theorem run_reaches (steps : List Step) : Run (run steps).world (run steps).trace :=
  (Machine.run_disciplined manager_supports Sound.empty Body.program_keeps steps).reaches

/-- What every body keeps beside the discipline holds of every operation of a
run. -/
theorem run_guarded {guard : {β : Type} → WorkerHistory → Op β → Prop}
    (bodies : ∀ b : Body, Keeps ⟨Discipline.answers, guard⟩ b.program []) (steps : List Step)
    {e : Entry Op WorkerError World Change} {rest : Trace} (hs : e :: rest <:+ (run steps).trace)
    {worker : Nat} {event : WorkerEvent} (what : e.what = .called worker event) :
    guard (workerHistory worker rest) event.op := by
  have hkeeps : ∀ b : Body, Keeps (discipline.also guard) b.program [] := fun b =>
    (Body.program_keeps b).also (bodies b)
  have hrun := manager.run_disciplined (manager_supports.also guard) Sound.empty hkeeps steps
  exact (hrun.reaches.guarded hs what).2

theorem Run.sound {w : World} {t : Trace} (h : Run w t) : Sound w.store := by
  have hinv := Reaches.inv manager_supports Sound.empty h
  exact hinv

/-- One move of a run: an operation that the worker's history allows, or a
change outside the workers. -/
inductive Moved (w : World) (t : Trace) : WhatHappened → World → Prop
  | called {w' : World} {β : Type} {o : Op β} {answer : Except WorkerError β} (worker : Nat)
      (allowed : Discipline.guard (workerHistory worker t) o) (performed : Performed w o answer w')
      (issued : ∃ reply, w.perform reply o = (answer, w')) :
      Moved w t (.called worker ⟨o, answer⟩) w'
  | changed {w' : World} {e : Change} (changed : Changed w e w') (reacted : w' = w.react e) :
      Moved w t (.changed e) w'

theorem Moved.steps {w w' : World} {t : Trace} {what : WhatHappened} (hm : Moved w t what w')
    (hs : Sound w.store) : Steps catalogue w.store.ledger w'.store.ledger := by
  cases hm with
  | called worker allowed performed => exact performed.steps allowed hs
  | changed changed => exact changed.steps hs

theorem Moved.sound {w w' : World} {t : Trace} {what : WhatHappened} (hm : Moved w t what w')
    (hs : Sound w.store) : Sound w'.store := by
  cases hm with
  | called worker allowed performed => exact performed.sound allowed hs
  | changed changed => exact changed.sound hs

theorem Moved.nextId_le {w w' : World} {t : Trace} {what : WhatHappened} (hm : Moved w t what w')
    (hs : Sound w.store) : w.store.nextId ≤ w'.store.nextId := by
  by_contra hlt
  have hused : w'.store.nextId ∈ w'.store.ledger.used := (hm.steps hs).used_mono (Nat.not_le.mp hlt)
  exact Nat.lt_irrefl _ hused

/-- What one move does to the database. -/
theorem Moved.store_cases {w w' : World} {t : Trace} {what : WhatHappened}
    (hm : Moved w t what w') :
    w'.store = w.store ∨ (∃ now, w'.store = { w.store with now }) ∨
      (∃ r, what = .changed (.request r) ∧ Accepted w.store r w'.store) ∨
      ∃ (worker : Nat) (β : Type) (tr : Transaction β) (a : β),
        what = .called worker ⟨.transaction tr, .ok a⟩ ∧
        Discipline.transaction (workerHistory worker t) tr ∧ Committed w.store tr a w'.store := by
  cases hm with
  | called worker allowed performed =>
      cases performed with
      | answered | rolledBack | requested => exact .inl rfl
      | committed commit => exact .inr (.inr (.inr ⟨worker, _, _, _, rfl, allowed, commit⟩))
  | changed changed =>
      cases changed with
      | accepted accepted => exact .inr (.inr (.inl ⟨_, rfl, accepted⟩))
      | refused => exact .inl rfl
      | tick => exact .inr (.inl ⟨_, rfl⟩)

theorem Moved.read {w w' : World} {t : Trace} {worker : Nat} {β : Type} {q : Query β} {a : β}
    (hm : Moved w t (.called worker ⟨.query q, .ok a⟩) w') :
    w.store.answer q = .ok a ∧ w' = w := by
  cases hm with
  | called worker allowed performed =>
      cases performed with
      | answered read =>
          rcases read with h | h
          · cases h
          · exact ⟨h.symm, rfl⟩

theorem Moved.reacted {w w' : World} {t : Trace} {e : Change} (hm : Moved w t (.changed e) w') :
    w' = w.react e := by
  cases hm with
  | changed _ reacted => exact reacted

theorem Moved.wrote {w w' : World} {t : Trace} {worker : Nat} {β : Type} {tr : Transaction β} {a : β}
    (hm : Moved w t (.called worker ⟨.transaction tr, .ok a⟩) w') :
    Discipline.transaction (workerHistory worker t) tr ∧ Committed w.store tr a w'.store := by
  cases hm with
  | called worker allowed performed =>
      cases performed with
      | committed commit => exact ⟨allowed, commit⟩

theorem mem_workerHistory_cons {worker : Nat} {t : Trace} {w : World} {what : WhatHappened}
    {e : WorkerEvent} : e ∈ workerHistory worker (⟨w, what⟩ :: t) ↔
      what = .called worker e ∨ e ∈ workerHistory worker t := by
  cases what with
  | changed c => simp
  | called worker' e' =>
      by_cases hw : worker' = worker
      · subst hw
        simp [eq_comm]
      · rw [workerHistory, history_called_ne _ hw]
        simp [hw]

theorem Run.induction {motive : World → Trace → Prop} (start : motive .empty [])
    (move : ∀ w t what w', Run w t → Moved w t what w' → motive w t → motive w' (⟨w, what⟩ :: t))
    {w : World} {t : Trace} (h : Run w t) : motive w t := by
  induction h with
  | start => exact start
  | called worker o r before allowed ih =>
      exact move _ _ _ _ before (.called worker allowed (World.performed _ r o) ⟨r, rfl⟩) ih
  | changed e before ih => exact move _ _ _ _ before (.changed (World.changed _ e) rfl) ih

/-- What a run recorded is a run of its own, from which the rest went on. -/
theorem Run.entry {w : World} {t : Trace} (h : Run w t) {v : World} {what : WhatHappened}
    {rest : Trace} (hs : ⟨v, what⟩ :: rest <:+ t) :
    Run v rest ∧ (∃ v', Moved v rest what v') ∧ Steps catalogue v.store.ledger w.store.ledger := by
  refine h.induction (motive := fun w t => ⟨v, what⟩ :: rest <:+ t → Run v rest ∧
    (∃ v', Moved v rest what v') ∧ Steps catalogue v.store.ledger w.store.ledger) ?start ?move hs
  case start =>
    intro hs
    simp at hs
  case move =>
    intro w t what' w' hrun hm ih hs
    have hmoved := hm.steps hrun.sound
    rcases List.suffix_cons_iff.mp hs with heq | hs
    · obtain ⟨hentry, rfl⟩ := List.cons.inj heq
      obtain ⟨rfl, rfl⟩ := Entry.mk.inj hentry
      exact ⟨hrun, ⟨w', hm⟩, hmoved⟩
    · obtain ⟨hv, hnext, hsteps⟩ := ih hs
      exact ⟨hv, hnext, hsteps.trans hmoved⟩

theorem run_later {Q : World → World → Prop} (refl : ∀ w, Q w w)
    (trans : ∀ {w w' w''}, Q w w' → Q w' w'' → Q w w'')
    (move : ∀ w t what w', Run w t → Moved w t what w' → Q w w') (steps more : List Step) :
    Q (run steps).world (run (steps ++ more)).world :=
  Machine.run_continues manager_supports Sound.empty Body.program_keeps refl trans
    (fun worker o r w t hrun allowed =>
      move w t _ _ hrun (.called worker allowed (World.performed w r o) ⟨r, rfl⟩))
    (fun e w t hrun => move w t _ _ hrun (.changed (World.changed w e) rfl)) steps more

def Labels : WhatHappened → Step → Prop
  | .changed e, l => l = .change e
  | .called worker _, l => ∃ reply, l = .act worker reply

theorem run_snoc (steps : List Step) (l : Step) :
    ((run (steps ++ [l])).world = (run steps).world ∧
      (run (steps ++ [l])).trace = (run steps).trace) ∨
      ∃ what, Moved (run steps).world (run steps).trace what (run (steps ++ [l])).world ∧
        Labels what l ∧
        (run (steps ++ [l])).trace = ⟨(run steps).world, what⟩ :: (run steps).trace := by
  have hs := manager.run_disciplined manager_supports Sound.empty Body.program_keeps steps
  have hstep : run (steps ++ [l]) = manager.step (run steps) l := manager.run_append steps [l]
  change Disciplined _ _ _ _ (run steps) at hs
  rw [hstep]
  generalize run steps = s at hs
  cases l with
  | act worker r =>
      simp only [Machine.step]
      split
      case h_1 o k hi =>
        exact .inr ⟨_, .called worker (hs.obeys worker _ hi).1 (World.performed _ r o) ⟨r, rfl⟩,
          ⟨r, rfl⟩, rfl⟩
      case h_2 => exact .inl ⟨rfl, rfl⟩
  | spawn b => exact .inl ⟨rfl, rfl⟩
  | change e => exact .inr ⟨_, .changed (World.changed _ e) rfl, rfl, rfl⟩

theorem run_recorded (steps : List Step) (l : Step) :
    (run (steps ++ [l])).trace = (run steps).trace ∨
      ∃ what, (run (steps ++ [l])).trace = ⟨(run steps).world, what⟩ :: (run steps).trace := by
  have hstep : run (steps ++ [l]) = manager.step (run steps) l := manager.run_append steps [l]
  rw [hstep]
  cases l with
  | act worker r =>
      simp only [Machine.step]
      split
      · exact .inr ⟨_, rfl⟩
      · exact .inl rfl
  | spawn b => exact .inl rfl
  | change e => exact .inr ⟨_, rfl⟩

theorem run_trace_suffix (steps more : List Step) :
    (run steps).trace <:+ (run (steps ++ more)).trace := by
  induction more using List.reverseRecOn with
  | nil => simp
  | append_singleton more l ih =>
      refine ih.trans ?_
      rw [← List.append_assoc]
      rcases run_recorded (steps ++ more) l with h | ⟨what, h⟩
      · exact h.symm ▸ List.suffix_rfl
      · exact h.symm ▸ List.suffix_cons _ _

/-- What a run recorded happened after some of its steps. -/
theorem run_entry {steps : List Step} {v : World} {what : WhatHappened} {rest : Trace}
    (hs : ⟨v, what⟩ :: rest <:+ (run steps).trace) :
    ∃ earlier, earlier <+: steps ∧ (run earlier).world = v ∧ (run earlier).trace = rest := by
  induction steps using List.reverseRecOn with
  | nil => cases List.suffix_nil.mp hs
  | append_singleton steps l ih =>
      have onward : ⟨v, what⟩ :: rest <:+ (run steps).trace → ∃ earlier, earlier <+: steps ++ [l] ∧
          (run earlier).world = v ∧ (run earlier).trace = rest := by
        intro h
        obtain ⟨earlier, hfront, hearlier⟩ := ih h
        exact ⟨earlier, hfront.trans (List.prefix_append _ _), hearlier⟩
      rcases run_recorded steps l with h | ⟨what', h⟩
      · exact onward (h ▸ hs)
      · rcases List.suffix_cons_iff.mp (h ▸ hs) with heq | hold
        · obtain ⟨hentry, hrest⟩ := List.cons.inj heq
          exact ⟨steps, List.prefix_append _ _, (Entry.mk.inj hentry).1.symm, hrest.symm⟩
        · exact onward hold

theorem run_act {steps : List Step} {worker : Nat} {β : Type} {o : Op β}
    {k : Except WorkerError β → Worker Unit}
    (next : (run steps).threads[worker]? = some (.call o k)) (reply : Reply) :
    (run (steps ++ [.act worker reply])).trace =
      ⟨(run steps).world, .called worker ⟨o, ((run steps).world.perform reply o).1⟩⟩ ::
        (run steps).trace := by
  have hstep : run (steps ++ [.act worker reply]) = manager.step (run steps) (.act worker reply) :=
    manager.run_append steps [.act worker reply]
  rw [hstep]
  simp only [Machine.step, next]
  rfl

def acting (worker : Nat) (s : Manager) : Bool :=
  match s.threads[worker]? with
  | some (.call _ _) => true
  | _ => false

theorem run_acting {steps : List Step} {worker : Nat} (h : acting worker (run steps) = true)
    (reply : Reply) : ∃ event, (run (steps ++ [.act worker reply])).trace =
      ⟨(run steps).world, .called worker event⟩ :: (run steps).trace := by
  unfold acting at h
  split at h
  · exact ⟨_, run_act ‹_› reply⟩
  · cases h

/-- What happens later in a run is a sequence of ledger steps. -/
theorem run_steps (steps more : List Step) :
    Steps catalogue (run steps).world.store.ledger (run (steps ++ more)).world.store.ledger :=
  run_later (Q := fun w w' => Steps catalogue w.store.ledger w'.store.ledger) (fun _ => .refl)
    Relation.ReflTransGen.trans (fun _ _ _ _ hrun hm => hm.steps hrun.sound) steps more

/-- A property of every state a run went through. -/
def Throughout (P : Store → Prop) (w : World) (t : Trace) : Prop :=
  P w.store ∧ ∀ e ∈ t, P e.before.store

/-- When each move keeps a property exactly under a condition, a run keeps it
exactly while all its moves meet the condition. -/
theorem Run.throughout_iff {P : Store → Prop} {C : Entry Op WorkerError World Change → Prop}
    (start : P World.empty.store)
    (move : ∀ w t what w', Run w t → Moved w t what w' → P w.store →
      (P w'.store ↔ C ⟨w, what⟩)) {w : World} {t : Trace} (h : Run w t) :
    Throughout P w t ↔ ∀ e ∈ t, C e := by
  refine h.induction (motive := fun w t => Throughout P w t ↔ ∀ e ∈ t, C e) ?start ?move
  case start => simp [Throughout, start]
  case move =>
    intro w t what w' hrun hm ih
    have hmove := move w t what w' hrun hm
    simp only [Throughout, List.forall_mem_cons] at ih ⊢
    constructor
    · rintro ⟨hw', hw, hold⟩
      exact ⟨(hmove hw).mp hw', ih.mp ⟨hw, hold⟩⟩
    · rintro ⟨hc, hold⟩
      obtain ⟨hw, hbefore⟩ := ih.mpr hold
      exact ⟨(hmove hw).mpr hc, hw, hbefore⟩

def answering (worker : Nat) (replies : List Reply) : List Step := replies.map (.act worker)

def delivering (step : StepName) (jobId : UUID) : Step :=
  .spawn (.deliver step.task jobId ["admin"] 3)

def requesting (r : Request) : Step := .change (.request r)

def drawnSlug : InstanceSlug where
  text := "k3v9x0q7m2ab"
  length_eq := by decide +kernel
  drawn := by
    have hall : ("k3v9x0q7m2ab".toList.all fun c => decide (c ∈ instanceSlugAlphabet)) = true := by
      decide +kernel
    simpa only [List.all_eq_true, decide_eq_true_eq] using hall

/-- A database, and instance 1 on it, created by workers 0, 1 and 2. -/
def provisioning : List Step :=
  [requesting (.createDatabase ⟨"pool", 5, "host", 5432, "database", "user"⟩ "secret"),
    requesting (.createInstance "APP" drawnSlug), delivering .instanceCreateStep01 2] ++
  answering 0 [.done, .done, .done, .done, .flag true] ++ [delivering .instanceCreateStep02 2] ++
  answering 1 [.done, .done, .done, .done, .outcome .completed "app", .done, .flag true] ++
  [delivering .instanceCreateStep03 2] ++
  answering 2 [.done, .token "password", .flag false, .done, .done]

/-- And its member 3, reconciled and checked by workers 3 and 4. -/
def joining : List Step :=
  provisioning ++
  [requesting (.createMember 1 "m1" .user), delivering .instanceUpdateStep01 4] ++
  answering 3 [.done, .done, .done, .done, .outcome .completed "app", .done, .flag true] ++
  [delivering .instanceUpdateStep02 4] ++
  answering 4 [.done, .done, .done, .flag true, .done, .done, .names ["m1"], .done]

/-- And template 5 with image 6, published by worker 5 to assignment 7. -/
def deploying : List Step :=
  joining ++ [
    requesting (.createTemplate "template" ⟨"Template", "git", "path", "main", []⟩),
    requesting (.createImage 5 "registry" "image" "1"),
    requesting (.putAssignment 1 5), delivering .templateAssignmentCreateStep01 8] ++
  answering 5 [.done, .done, .done, .archive ⟨"first", ⟨"first", "path"⟩⟩, .done, .done,
    .identifier 7, .template none, .done, .identifier 0, .version (some ⟨1, .pending, false⟩), .done,
    .version (some ⟨1, .succeeded, false⟩), .template (some ⟨2, some 1⟩), .done, .done, .done]

end CoderManager
