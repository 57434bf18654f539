import CoderManager.Runs

/-!
# Rules for the attempts of one step

A rule about the workers that hold a claim at one step is kept by every body
when the operation of that step keeps it: a worker holds one claim, the one its
first operation was given.
-/
namespace CoderManager
open Programs

theorem Holds.unique {h : WorkerHistory} {c c' : ExecutionClaim} (hc : Holds h c) (hc' : Holds h c') :
    c = c' := by
  have heq : [claimEvent c] = [claimEvent c'] :=
    (List.suffix_of_suffix_length_le hc hc' (Nat.le_refl _)).eq_of_length rfl
  injection heq with heq
  simp only [claimEvent, Event.mk.injEq] at heq
  exact Option.some.inj (Except.ok.inj (eq_of_heq heq.2.2))

theorem not_holds_of_query {h : WorkerHistory} {β : Type} {q : Query β} {a : Except WorkerError β}
    (hs : [(⟨.query q, a⟩ : WorkerEvent)] <:+ h) (c : ExecutionClaim) : ¬Holds h c := by
  intro hc
  have heq : [(⟨.query q, a⟩ : WorkerEvent)] = [claimEvent c] :=
    (List.suffix_of_suffix_length_le hs hc (Nat.le_refl _)).eq_of_length rfl
  injection heq with heq
  exact query_ne_transaction heq

theorem call_ne_claimEvent {β : Type} {k : Call β} {a : Except WorkerError β} {c : ExecutionClaim} :
    (⟨.call k, a⟩ : WorkerEvent) ≠ claimEvent c := fun h =>
  Bool.noConfusion (congrArg (fun e : WorkerEvent => e.op.isCall) h)

def claimGiven : WorkerEvent → Option ExecutionClaim
  | ⟨.transaction (.claimExecution jobId task), .ok (some c)⟩ =>
      if c.jobId = jobId ∧ c.taskName = task then some c else none
  | _ => none

theorem claimGiven_eq_some {e : WorkerEvent} {c : ExecutionClaim} (h : claimGiven e = some c) :
    e = claimEvent c := by
  unfold claimGiven at h
  split at h
  · split at h
    · rename_i hown
      obtain ⟨rfl, rfl⟩ := hown
      cases h
      rfl
    · cases h
  · cases h

theorem holds_of_first {h : WorkerHistory} {c : ExecutionClaim}
    (hfirst : h.getLast?.bind claimGiven = some c) : Holds h c := by
  obtain ⟨e, hlast, he⟩ := Option.bind_eq_some_iff.mp hfirst
  rw [claimGiven_eq_some he] at hlast
  obtain ⟨later, hlater⟩ := List.getLast?_eq_some_iff.mp hlast
  exact ⟨later, hlater.symm⟩

theorem not_holds_nil (c : ExecutionClaim) : ¬Holds [] c := fun h => by
  have := h.length_le
  simp at this

/-- What an operation must satisfy, given the history and the claim of its worker. -/
abbrev AttemptRule := WorkerHistory → ExecutionClaim → {β : Type} → Op β → Prop

/-- The rule binds the workers that hold a claim at one of these steps. -/
def AtSteps (steps : StepName → Prop) (rule : AttemptRule) {β : Type} (h : WorkerHistory) (o : Op β) :
    Prop := ∀ c, Holds h c → steps c.step → rule h c o

def attempts (steps : StepName → Prop) (rule : AttemptRule) : Protocol Op WorkerError where
  answers := Discipline.answers
  guard := fun h o => AtSteps steps rule h o

section Attempts
variable {steps : StepName → Prop} {rule : AttemptRule} {h : WorkerHistory} {c : ExecutionClaim}

theorem attempts_guard {β : Type} {o : Op β} (hc : Holds h c) (ho : rule h c o) :
    (attempts steps rule).guard h o := fun _ hc' _ => hc.unique hc' ▸ ho

theorem attempts_of_other {α : Type} {p : Worker α} (hc : Holds h c) (other : ¬steps c.step) :
    Keeps (attempts steps rule) p h :=
  .of_guard fun _ hs _ _ _ hc' hstep => absurd (((Holds.later hc hs).unique hc').symm ▸ hstep) other

theorem attempts_of_query {α β : Type} (q : Query β) (k : β → Worker α) :
    Keeps (attempts steps rule) (query q >>= k) [] := by
  refine .perform_bind (fun c hc => absurd hc (not_holds_nil c)) fun a _ => ?_
  exact .of_guard fun _ hs _ _ c hc => absurd hc (not_holds_of_query hs c)

/-- An operation keeps the rule, and may fail its execution where it raises. -/
def Attempt (steps : StepName → Prop) (rule : AttemptRule) (p : Worker TaskStatus)
    (c : ExecutionClaim) : Prop :=
  Obeys (attempts steps rule) p [claimEvent c] (fun _ _ => True)
    fun _ h => rule h c (.transaction (.failExecution c .none))

/-- Every body keeps a rule that the operations of its steps keep. -/
theorem Body.keeps_attempts
    (operations : ∀ protectedUsernames fuel step c, c.step = step → steps step →
      Attempt steps rule (operation protectedUsernames fuel step c) c) (b : Body) :
    Keeps (attempts steps rule) b.program [] := by
  cases b with
  | deliver task jobId protectedUsernames fuel =>
      cases task with
      | registered step =>
          refine .bind ?_ fun _ _ _ => .pure ()
          refine .perform_bind (fun c hc => absurd hc (not_holds_nil c)) fun claim hclaim => ?_
          cases claim with
          | none => exact .pure _
          | some c =>
              obtain ⟨rfl, htask, hstep⟩ : c.jobId = jobId ∧ c.taskName = step.task ∧
                c.step.task = step.task := hclaim
              have hs : c.step = step := TaskName.registered.inj hstep
              rw [← htask]
              by_cases hin : steps c.step
              · have hop := operations protectedUsernames fuel step c hs (hs ▸ hin)
                refine obeys_tryCatch.mpr ((Obeys.extends_history hop).mono (fun _ _ _ => trivial) ?_)
                rintro e h₁ ⟨hs₁, failing⟩
                have hfail : (attempts steps rule).guard h₁ (.transaction (.failExecution c .none)) :=
                  attempts_guard (Holds.start.later hs₁) failing
                exact Keeps.bind (.perform hfail) fun _ _ _ => .throw _
              · exact attempts_of_other Holds.start hin
      | unknown name => exact .pure ()
  | retryJobExecutions jobStaleAfterSeconds =>
      exact .bind (attempts_of_query _ _) fun _ _ _ => .pure ()
  | checkInstanceStates => exact .bind (attempts_of_query _ _) fun _ _ _ => .pure ()

end Attempts

theorem Attempt.of_keeps {steps : StepName → Prop} {rule : AttemptRule} {p : Worker TaskStatus}
    {c : ExecutionClaim} (hp : Keeps (attempts steps rule) p [claimEvent c])
    (failing : ∀ h, rule h c (.transaction (.failExecution c .none))) : Attempt steps rule p c :=
  hp.mono (fun _ _ _ => trivial) fun _ h _ => failing h

/-- A rule that the operations keep holds of every operation of a run. -/
theorem run_attempts (steps : StepName → Prop) (rule : AttemptRule)
    (operations : ∀ protectedUsernames fuel step c, c.step = step → steps step →
      Attempt steps rule (Body.operation protectedUsernames fuel step c) c)
    (ls : List Step) {e : Entry Op WorkerError World Change} {rest : Trace}
    (hs : e :: rest <:+ (run ls).trace) {worker : Nat} {event : WorkerEvent}
    (what : e.what = .called worker event) {c : ExecutionClaim}
    (held : Holds (workerHistory worker rest) c) (hstep : steps c.step) :
    rule (workerHistory worker rest) c event.op := by
  have hguard := @run_guarded (fun h o => AtSteps steps rule h o)
    (Body.keeps_attempts operations) ls _ _ hs _ _ what
  exact hguard c held hstep

theorem Holds.before {t : Trace} {worker : Nat} {c : ExecutionClaim} {event : WorkerEvent}
    (held : Holds (workerHistory worker t) c) (mem : event ∈ workerHistory worker t)
    (other : event ≠ claimEvent c) : ∃ w rest, ⟨w, .called worker event⟩ :: rest <:+ t ∧
      Holds (workerHistory worker rest) c := by
  obtain ⟨w, hw⟩ := mem_history.mp mem
  obtain ⟨later, rest, ht⟩ := List.append_of_mem hw
  have hrest : ⟨w, .called worker event⟩ :: rest <:+ t := ht ▸ List.suffix_append _ _
  refine ⟨w, rest, hrest, ?_⟩
  have hsuffix : event :: workerHistory worker rest <:+ workerHistory worker t := by
    have hcons := history_called_self (w := w) (t := rest) worker event
    rw [← hcons]
    exact hrest.filterMap _
  have hlen : [claimEvent c].length ≤ (event :: workerHistory worker rest).length := by simp
  rcases List.suffix_cons_iff.mp (List.suffix_of_suffix_length_le held hsuffix hlen) with heq | hs
  · exact absurd (List.cons.inj heq).1.symm other
  · exact hs

end CoderManager
