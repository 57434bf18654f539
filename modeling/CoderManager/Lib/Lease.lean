import Mathlib.Data.Set.Insert
import Mathlib.Logic.Relation

/-!
# Fenced leases over durable jobs

A ledger holds jobs and the lifecycles of the resources they work on. A job is
claimed for one numbered attempt at a time; the attempt owns the pair while the
job still runs that attempt and the resource still names the job, its action
and its step. `Step` lists what a transaction may do to a ledger.
-/
namespace Leases

inductive Status where
  | pending
  | running
  | success
  | error
  deriving DecidableEq, Repr

/-- The transition has not converged: it runs, or a retry may run it. -/
def Status.isActive : Status → Bool
  | .pending | .running | .error => true
  | .success => false

def Status.inProgress : Status → Bool
  | .pending | .running => true
  | .success | .error => false

@[simp] theorem Status.isActive_eq_false {s : Status} : s.isActive = false ↔ s = .success := by
  cases s <;> decide

@[simp] theorem Status.isActive_eq_true {s : Status} : s.isActive = true ↔ s ≠ .success := by
  cases s <;> decide

@[simp] theorem Status.inProgress_eq_false {s : Status} :
    s.inProgress = false ↔ s = .success ∨ s = .error := by
  cases s <;> decide

/-- The action each kind of job drives a resource through, the task and step
pairs its workflow goes through, and the resources it is made for. -/
structure Catalogue (K N A T S : Type) where
  action : N → Option A
  stage : N → T → S → Prop
  made : N → K → Prop

structure Job (K N T S : Type) where
  name : N
  owner : Option K
  task : T
  step : S
  status : Status
  attempt : Nat
  claimedAt : Option Int

structure Lifecycle (J A S : Type) where
  action : A
  status : Status
  jobId : Option J
  step : Option S
  deriving DecidableEq, Repr

/-- `used` holds every job id ever drawn, also those whose row was deleted. -/
@[ext] structure Ledger (J K N A T S : Type) where
  jobs : J → Option (Job K N T S)
  owners : K → Option (Lifecycle J A S)
  used : Set J

/-- The token of one attempt. -/
structure Token (J T S : Type) where
  job : J
  task : T
  step : S
  attempt : Nat

variable {J K N A T S : Type} [DecidableEq J] [DecidableEq K]

/-- The resource a job works on still names this job, its action and its step.
A job without a resource always matches. -/
def Matches (C : Catalogue K N A T S) (l : Ledger J K N A T S) (j : J) (b : Job K N T S) : Prop :=
  ∀ k, b.owner = some k → ∃ c, l.owners k = some c ∧ c.jobId = some j ∧
    C.action b.name = some c.action ∧ c.step = some b.step

def Owned (C : Catalogue K N A T S) (l : Ledger J K N A T S) (c : Token J T S) : Prop :=
  ∃ b, l.jobs c.job = some b ∧ b.task = c.task ∧ b.step = c.step ∧ b.attempt = c.attempt ∧
    b.status = .running ∧ Matches C l c.job b

def Ledger.put (l : Ledger J K N A T S) (j : J) (b : Job K N T S)
    (f : Lifecycle J A S → Lifecycle J A S) : Ledger J K N A T S where
  jobs := fun i => if i = j then some b else l.jobs i
  owners := fun k => if b.owner = some k then (l.owners k).map f else l.owners k
  used := l.used

def Ledger.assign (l : Ledger J K N A T S) (k : K) (c : Lifecycle J A S) : Ledger J K N A T S :=
  { l with owners := fun i => if i = k then some c else l.owners i }

def Ledger.enqueue (l : Ledger J K N A T S) (j : J) (b : Job K N T S) : Ledger J K N A T S :=
  { l with jobs := fun i => if i = j then some b else l.jobs i, used := insert j l.used }

def Ledger.discard (l : Ledger J K N A T S) (j : J) : Ledger J K N A T S :=
  { l with jobs := fun i => if i = j then none else l.jobs i }

def Ledger.keep (l : Ledger J K N A T S) (keep : K → Bool) : Ledger J K N A T S :=
  { l with owners := fun k => if keep k then l.owners k else none }

@[simp] theorem Ledger.put_jobs_self (l : Ledger J K N A T S) (j : J) (b : Job K N T S)
    (f : Lifecycle J A S → Lifecycle J A S) : (l.put j b f).jobs j = some b := if_pos rfl

omit [DecidableEq K] in
@[simp] theorem Ledger.enqueue_jobs_self (l : Ledger J K N A T S) (j : J) (b : Job K N T S) :
    (l.enqueue j b).jobs j = some b := if_pos rfl

/-- Everything a transaction may do to a ledger. -/
inductive Step (C : Catalogue K N A T S) : Ledger J K N A T S → Ledger J K N A T S → Prop
  | claim {l : Ledger J K N A T S} {j : J} {b : Job K N T S} (at_ : Int)
      (row : l.jobs j = some b) (idle : b.status = .pending ∨ b.status = .error)
      (current : Matches C l j b) :
      Step C l (l.put j
        { b with status := .running, attempt := b.attempt + 1, claimedAt := some at_ }
        (fun c => { c with status := .running }))
  | heartbeat {l : Ledger J K N A T S} {j : J} {b : Job K N T S} (at_ : Int)
      (row : l.jobs j = some b) (running : b.status = .running) (current : Matches C l j b) :
      Step C l (l.put j { b with claimedAt := some at_ } id)
  | release {l : Ledger J K N A T S} {j : J} {b : Job K N T S} {s : Status}
      (row : l.jobs j = some b) (running : b.status = .running) (current : Matches C l j b)
      (idle : s = .pending ∨ s = .error) :
      Step C l (l.put j { b with status := s, claimedAt := none } (fun c => { c with status := s }))
  | advance {l : Ledger J K N A T S} {j : J} {b : Job K N T S} {task : T} {step : S}
      (row : l.jobs j = some b) (running : b.status = .running) (current : Matches C l j b)
      (stage : C.stage b.name task step) :
      Step C l (l.put j
        { b with task := task, step := step, status := .pending, claimedAt := none }
        (fun c => { c with status := .pending, step := some step }))
  | complete {l : Ledger J K N A T S} {j : J} {b : Job K N T S}
      (row : l.jobs j = some b) (running : b.status = .running) (current : Matches C l j b) :
      Step C l (l.put j { b with status := .success, claimedAt := none }
        (fun c => { c with status := .success, step := none }))
  | stage {l : Ledger J K N A T S} {j : J} {k : K} {name : N} {a : A} {task : T} {step : S}
      (fresh : j ∉ l.used) (action : C.action name = some a)
      (stage : C.stage name task step) (made : C.made name k)
      (settled : ∀ c, l.owners k = some c → c.status = .success ∨ c.status = .error) :
      Step C l ((l.enqueue j ⟨name, some k, task, step, .pending, 0, none⟩).assign k
        ⟨a, .pending, some j, some step⟩)
  | system {l : Ledger J K N A T S} {j : J} {name : N} {task : T} {step : S}
      (fresh : j ∉ l.used) (stage : C.stage name task step) :
      Step C l (l.enqueue j ⟨name, none, task, step, .pending, 0, none⟩)
  | enrol {l : Ledger J K N A T S} (k : K) (a : A) (fresh : l.owners k = none) :
      Step C l (l.assign k ⟨a, .success, none, none⟩)
  | rename {l : Ledger J K N A T S} {k : K} {c : Lifecycle J A S} (a : A)
      (row : l.owners k = some c) (settled : c.status = .success) :
      Step C l (l.assign k { c with action := a })
  | discard {l : Ledger J K N A T S} {k : K} {c : Lifecycle J A S} {j : J}
      (row : l.owners k = some c) (settled : c.status = .success) (job : c.jobId = some j) :
      Step C l ((l.assign k { c with jobId := none }).discard j)
  | drop {l : Ledger J K N A T S} (keep : K → Bool) : Step C l (l.keep keep)
  | spend {l : Ledger J K N A T S} (ids : Set J) : Step C l { l with used := l.used ∪ ids }

abbrev Steps (C : Catalogue K N A T S) : Ledger J K N A T S → Ledger J K N A T S → Prop :=
  Relation.ReflTransGen (Step C)

/-- Jobs and lifecycles are kept in step with each other. -/
structure Consistent (C : Catalogue K N A T S) (l : Ledger J K N A T S) : Prop where
  current : ∀ k c j, l.owners k = some c → c.jobId = some j →
    ∃ b, l.jobs j = some b ∧ b.owner = some k ∧ b.status = c.status
  active : ∀ k c, l.owners k = some c → c.status ≠ .success →
    ∃ j b, c.jobId = some j ∧ l.jobs j = some b ∧ c.step = some b.step ∧
      C.action b.name = some c.action
  settled : ∀ k c, l.owners k = some c → c.status = .success → c.step = none
  stage : ∀ j b, l.jobs j = some b → C.stage b.name b.task b.step
  clock : ∀ j b, l.jobs j = some b → (b.status = .running ↔ b.claimedAt ≠ none)
  known : ∀ j b, l.jobs j = some b → j ∈ l.used
  made : ∀ j b k, l.jobs j = some b → b.owner = some k → C.made b.name k

section Consistency
variable {C : Catalogue K N A T S} {l l' : Ledger J K N A T S}

omit [DecidableEq J] [DecidableEq K] in
theorem Consistent.empty (used : Set J) :
    Consistent C ({ jobs := fun _ => none, owners := fun _ => none, used } : Ledger J K N A T S) := by
  constructor <;> simp

omit [DecidableEq J] [DecidableEq K] in
theorem Consistent.owner_eq (h : Consistent C l) {k : K} {c : Lifecycle J A S} {j : J}
    {b : Job K N T S} (hk : l.owners k = some c) (hc : c.jobId = some j) (hj : l.jobs j = some b) :
    b.owner = some k := by
  obtain ⟨b', hb', howner, -⟩ := h.current k c j hk hc
  rw [hj, Option.some.injEq] at hb'
  exact hb' ▸ howner

/-- Writing a job together with the resource it works on keeps the ledger
consistent when both receive the same status and step. -/
theorem Consistent.put (h : Consistent C l) {j : J} {b b' : Job K N T S}
    {f : Lifecycle J A S → Lifecycle J A S} (row : l.jobs j = some b) (current : Matches C l j b)
    (name : b'.name = b.name) (owner : b'.owner = b.owner)
    (stage : C.stage b'.name b'.task b'.step) (clock : b'.status = .running ↔ b'.claimedAt ≠ none)
    (job : ∀ c, (f c).jobId = c.jobId) (action : ∀ c, (f c).action = c.action)
    (status : ∀ c, (f c).status = b'.status)
    (step : ∀ c, c.step = some b.step →
      (f c).step = if b'.status = .success then none else some b'.step) :
    Consistent C (l.put j b' f) := by
  -- A resource other than the job's own does not name the job.
  have other : ∀ k c, l.owners k = some c → b'.owner ≠ some k → c.jobId ≠ some j := by
    intro k c hk hne hc
    exact hne (owner ▸ h.owner_eq hk hc row)
  have own : ∀ k c, l.owners k = some c → b'.owner = some k →
      c.jobId = some j ∧ C.action b.name = some c.action ∧ c.step = some b.step := by
    intro k c hk ho
    obtain ⟨c', hc', hrest⟩ := current k (owner ▸ ho)
    rw [hk, Option.some.injEq] at hc'
    exact hc' ▸ hrest
  constructor
  case current =>
    intro k c i hk hc
    by_cases ho : b'.owner = some k
    · simp only [Ledger.put, ho, if_true, Option.map_eq_some_iff] at hk
      obtain ⟨c₀, hk₀, rfl⟩ := hk
      rw [job, (own k c₀ hk₀ ho).1, Option.some.injEq] at hc
      subst hc
      exact ⟨b', by simp [Ledger.put], ho, (status c₀).symm⟩
    · simp only [Ledger.put, ho, if_false] at hk
      have hij : i ≠ j := fun e => other k c hk ho (e ▸ hc)
      obtain ⟨b₁, hb₁, hrest⟩ := h.current k c i hk hc
      exact ⟨b₁, by simpa [Ledger.put, hij] using hb₁, hrest⟩
  case active =>
    intro k c hk hs
    by_cases ho : b'.owner = some k
    · simp only [Ledger.put, ho, if_true, Option.map_eq_some_iff] at hk
      obtain ⟨c₀, hk₀, rfl⟩ := hk
      obtain ⟨hjob, hact, hstep⟩ := own k c₀ hk₀ ho
      refine ⟨j, b', by rw [job, hjob], by simp [Ledger.put], ?_, ?_⟩
      · rw [status c₀] at hs
        rw [step c₀ hstep, if_neg hs]
      · rw [name, action, hact]
    · simp only [Ledger.put, ho, if_false] at hk
      obtain ⟨i, b₁, hi, hb₁, hrest⟩ := h.active k c hk hs
      have hij : i ≠ j := fun e => other k c hk ho (e ▸ hi)
      exact ⟨i, b₁, hi, by simpa [Ledger.put, hij] using hb₁, hrest⟩
  case settled =>
    intro k c hk hs
    by_cases ho : b'.owner = some k
    · simp only [Ledger.put, ho, if_true, Option.map_eq_some_iff] at hk
      obtain ⟨c₀, hk₀, rfl⟩ := hk
      rw [status c₀] at hs
      rw [step c₀ (own k c₀ hk₀ ho).2.2, if_pos hs]
    · simp only [Ledger.put, ho, if_false] at hk
      exact h.settled k c hk hs
  case stage =>
    intro i b₁ hi
    by_cases hij : i = j
    · simp only [Ledger.put, hij, if_true, Option.some.injEq] at hi
      exact hi ▸ stage
    · simp only [Ledger.put, hij, if_false] at hi
      exact h.stage i b₁ hi
  case clock =>
    intro i b₁ hi
    by_cases hij : i = j
    · simp only [Ledger.put, hij, if_true, Option.some.injEq] at hi
      exact hi ▸ clock
    · simp only [Ledger.put, hij, if_false] at hi
      exact h.clock i b₁ hi
  case known =>
    intro i b₁ hi
    by_cases hij : i = j
    · exact hij ▸ h.known j b row
    · simp only [Ledger.put, hij, if_false] at hi
      exact h.known i b₁ hi
  case made =>
    intro i b₁ k hi hk
    by_cases hij : i = j
    · simp only [Ledger.put, hij, if_true, Option.some.injEq] at hi
      subst hi
      exact name ▸ h.made j b k row (owner ▸ hk)
    · simp only [Ledger.put, hij, if_false] at hi
      exact h.made i b₁ k hi hk

omit [DecidableEq K] in
theorem Consistent.enqueue (h : Consistent C l) {j : J} {b : Job K N T S} (fresh : j ∉ l.used)
    (stage : C.stage b.name b.task b.step) (clock : b.status = .running ↔ b.claimedAt ≠ none)
    (made : ∀ k, b.owner = some k → C.made b.name k) : Consistent C (l.enqueue j b) := by
  have old : ∀ i b₁, l.jobs i = some b₁ → (l.enqueue j b).jobs i = some b₁ := by
    intro i b₁ hi
    have hij : i ≠ j := by
      rintro rfl
      exact fresh (h.known i b₁ hi)
    simpa [Ledger.enqueue, hij] using hi
  constructor
  case current =>
    intro k c i hk hc
    obtain ⟨b₁, hb₁, hrest⟩ := h.current k c i hk hc
    exact ⟨b₁, old i b₁ hb₁, hrest⟩
  case active =>
    intro k c hk hs
    obtain ⟨i, b₁, hi, hb₁, hrest⟩ := h.active k c hk hs
    exact ⟨i, b₁, hi, old i b₁ hb₁, hrest⟩
  case settled => exact h.settled
  case stage =>
    intro i b₁ hi
    by_cases hij : i = j
    · simp only [Ledger.enqueue, hij, if_true, Option.some.injEq] at hi
      exact hi ▸ stage
    · simp only [Ledger.enqueue, hij, if_false] at hi
      exact h.stage i b₁ hi
  case clock =>
    intro i b₁ hi
    by_cases hij : i = j
    · simp only [Ledger.enqueue, hij, if_true, Option.some.injEq] at hi
      exact hi ▸ clock
    · simp only [Ledger.enqueue, hij, if_false] at hi
      exact h.clock i b₁ hi
  case known =>
    intro i b₁ hi
    by_cases hij : i = j
    · exact hij ▸ Set.mem_insert j l.used
    · simp only [Ledger.enqueue, hij, if_false] at hi
      exact Set.mem_insert_of_mem j (h.known i b₁ hi)
  case made =>
    intro i b₁ k hi hk
    by_cases hij : i = j
    · simp only [Ledger.enqueue, hij, if_true, Option.some.injEq] at hi
      subst hi
      exact made k hk
    · simp only [Ledger.enqueue, hij, if_false] at hi
      exact h.made i b₁ k hi hk

omit [DecidableEq J] in
theorem Consistent.assign (h : Consistent C l) {k : K} {c : Lifecycle J A S}
    (current : ∀ j, c.jobId = some j → ∃ b, l.jobs j = some b ∧ b.owner = some k ∧
      b.status = c.status)
    (active : c.status ≠ .success → ∃ j b, c.jobId = some j ∧ l.jobs j = some b ∧
      c.step = some b.step ∧ C.action b.name = some c.action)
    (settled : c.status = .success → c.step = none) : Consistent C (l.assign k c) := by
  have split : ∀ i c₁, (l.assign k c).owners i = some c₁ →
      (i = k ∧ c₁ = c) ∨ l.owners i = some c₁ := by
    intro i c₁ hi
    by_cases hik : i = k
    · simp only [Ledger.assign, hik, if_true, Option.some.injEq] at hi
      exact .inl ⟨hik, hi.symm⟩
    · simp only [Ledger.assign, hik, if_false] at hi
      exact .inr hi
  constructor
  case current =>
    intro i c₁ j hi hj
    rcases split i c₁ hi with ⟨rfl, rfl⟩ | hold
    · exact current j hj
    · exact h.current i c₁ j hold hj
  case active =>
    intro i c₁ hi hs
    rcases split i c₁ hi with ⟨rfl, rfl⟩ | hold
    · exact active hs
    · exact h.active i c₁ hold hs
  case settled =>
    intro i c₁ hi hs
    rcases split i c₁ hi with ⟨rfl, rfl⟩ | hold
    · exact settled hs
    · exact h.settled i c₁ hold hs
  case stage => exact h.stage
  case clock => exact h.clock
  case known => exact h.known
  case made => exact h.made

omit [DecidableEq J] [DecidableEq K] in
theorem Consistent.keep (h : Consistent C l) (keep : K → Bool) : Consistent C (l.keep keep) := by
  have old : ∀ k c, (l.keep keep).owners k = some c → l.owners k = some c := by
    intro k c hk
    by_cases hkeep : keep k = true
    · simpa [Ledger.keep, hkeep] using hk
    · simp [Ledger.keep, hkeep] at hk
  exact ⟨fun k c j hk => h.current k c j (old k c hk), fun k c hk => h.active k c (old k c hk),
    fun k c hk => h.settled k c (old k c hk), h.stage, h.clock, h.known, h.made⟩

omit [DecidableEq K] in
theorem Consistent.discard (h : Consistent C l) {j : J}
    (free : ∀ k c, l.owners k = some c → c.jobId ≠ some j) : Consistent C (l.discard j) := by
  have keep : ∀ i b, i ≠ j → l.jobs i = some b → (l.discard j).jobs i = some b := by
    intro i b hij hi
    simpa [Ledger.discard, hij] using hi
  have old : ∀ i b, (l.discard j).jobs i = some b → l.jobs i = some b := by
    intro i b hi
    by_cases hij : i = j
    · simp [Ledger.discard, hij] at hi
    · simpa [Ledger.discard, hij] using hi
  refine ⟨?_, ?_, h.settled, fun i b hi => h.stage i b (old i b hi),
    fun i b hi => h.clock i b (old i b hi), fun i b hi => h.known i b (old i b hi),
    fun i b k hi => h.made i b k (old i b hi)⟩
  · intro k c i hk hi
    obtain ⟨b, hb, hrest⟩ := h.current k c i hk hi
    exact ⟨b, keep i b (fun e => free k c hk (e ▸ hi)) hb, hrest⟩
  · intro k c hk hs
    obtain ⟨i, b, hi, hb, hrest⟩ := h.active k c hk hs
    exact ⟨i, b, hi, keep i b (fun e => free k c hk (e ▸ hi)) hb, hrest⟩

theorem Consistent.step (h : Consistent C l) (hs : Step C l l') : Consistent C l' := by
  cases hs with
  | claim at_ row idle current =>
      have stage := h.stage _ _ row
      exact h.put row current rfl rfl stage (by simp) (fun _ => rfl) (fun _ => rfl)
        (fun _ => rfl) (fun c hc => by simpa using hc)
  | @heartbeat j b at_ row running current =>
      have stage := h.stage _ _ row
      -- The lifecycle is left as it is: it already shows a running job.
      have hown : ∀ k c, b.owner = some k → l.owners k = some c → c.status = .running := by
        intro k c hk hc
        obtain ⟨c', hc', hjob, -⟩ := current k hk
        rw [hc, Option.some.injEq] at hc'
        subst hc'
        obtain ⟨b', hb', -, hst⟩ := h.current k c j hc hjob
        rw [row, Option.some.injEq] at hb'
        rw [← hst, ← hb', running]
      have heq : l.put j { b with claimedAt := some at_ } id =
          l.put j { b with claimedAt := some at_ } (fun c => { c with status := .running }) := by
        refine Ledger.ext rfl (funext fun k => ?_) rfl
        by_cases hk : b.owner = some k
        · cases hc : l.owners k with
          | none => simp [Ledger.put, hc]
          | some c => simp [Ledger.put, hk, hc, ← hown k c hk hc]
        · simp [Ledger.put, hk]
      rw [heq]
      exact h.put row current rfl rfl stage (by simp [running]) (fun _ => rfl) (fun _ => rfl)
        (fun _ => running.symm) (fun c hc => by simpa [running] using hc)
  | release row running current idle =>
      have stage := h.stage _ _ row
      refine h.put row current rfl rfl stage ?_ (fun _ => rfl) (fun _ => rfl) (fun _ => rfl)
        (fun c hc => ?_)
      · rcases idle with rfl | rfl <;> simp
      · rcases idle with rfl | rfl <;> simpa using hc
  | advance row running current stage =>
      exact h.put row current rfl rfl stage (by simp) (fun _ => rfl) (fun _ => rfl)
        (fun _ => rfl) (fun _ _ => by simp)
  | complete row running current =>
      have stage := h.stage _ _ row
      exact h.put row current rfl rfl stage (by simp) (fun _ => rfl) (fun _ => rfl)
        (fun _ => rfl) (fun _ _ => by simp)
  | @stage j k name a task step fresh action stage made settled =>
      have henqueue : Consistent C (l.enqueue j ⟨name, some k, task, step, .pending, 0, none⟩) :=
        h.enqueue fresh stage (by simp) (fun _ hk => Option.some.inj hk ▸ made)
      refine henqueue.assign ?_ ?_ ?_
      · rintro _ ⟨⟩
        exact ⟨⟨name, some k, task, step, .pending, 0, none⟩, by simp [Ledger.enqueue], rfl, rfl⟩
      · intro _
        exact ⟨j, ⟨name, some k, task, step, .pending, 0, none⟩, rfl, by simp [Ledger.enqueue], rfl,
          action⟩
      · intro hs
        cases hs
  | system fresh stage => exact h.enqueue fresh stage (by simp) (fun _ hk => by cases hk)
  | enrol k a fresh =>
      exact h.assign (fun _ hj => by cases hj) (fun hs => absurd rfl hs) (fun _ => rfl)
  | @rename k c a row settled =>
      exact h.assign (fun j hj => h.current k c j row hj) (fun hs => absurd settled hs)
        (fun _ => h.settled k c row settled)
  | @discard k c j row settled job =>
      have hassign : Consistent C (l.assign k { c with jobId := none }) :=
        h.assign (fun _ hj => by cases hj) (fun hs => absurd settled hs)
          (fun _ => h.settled k c row settled)
      -- No resource names the discarded job any more.
      have hfree : ∀ i d, (l.assign k { c with jobId := none }).owners i = some d →
          d.jobId ≠ some j := by
        intro i d hd hj
        by_cases hik : i = k
        · simp only [Ledger.assign, hik, if_true, Option.some.injEq] at hd
          subst hd
          cases hj
        · simp only [Ledger.assign, hik, if_false] at hd
          obtain ⟨b, hb, ho, -⟩ := h.current k c j row job
          have := h.owner_eq hd hj hb
          rw [ho, Option.some.injEq] at this
          exact hik this.symm
      exact hassign.discard hfree
  | drop keep => exact h.keep keep
  | spend ids =>
      exact ⟨h.current, h.active, h.settled, h.stage, h.clock,
        fun j b hj => .inl (h.known j b hj), h.made⟩

theorem Consistent.steps (h : Consistent C l) (hs : Steps C l l') : Consistent C l' := by
  induction hs with
  | refl => exact h
  | tail _ hstep ih => exact ih.step hstep

end Consistency

end Leases
