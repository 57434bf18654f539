import CoderManager.Domains.WorkspaceService
import CoderManager.Results.AdminCredentials
import CoderManager.Results.CreationBuild
import CoderManager.Results.JobConsistency
import CoderManager.Results.WorkspaceReferences

/-!
# Attempts at a workspace

An attempt runs against a deployment whose requests succeed and whose start builds run.
A creation adopts what is there or creates the workspace; an update needs a workspace to
find.
-/
namespace CoderManager
open Programs Tables WorkspaceService

/-- An attempt on its way, and for how many more polls a start build may be under way. -/
@[ext] structure Recovery (σ : Type) where
  world : World
  coder : σ
  remaining : Nat

namespace Recovery
variable {σ : Type} (S : WorkspaceService σ)

def UnderWay (b : RemoteBuild) : Prop :=
  b.transition = .start ∧ b.status ≠ .running ∧ b.status ≠ .failed ∧ b.status ≠ .canceled ∧
    b.status ≠ .canceling

/-- A start build that is polled is under way while polls remain and runs then. No
other build runs. -/
def Polls (x x' : Recovery σ) (b : RemoteBuild) (status : BuildStatus) : Prop :=
  if b.transition = .start then
    (status = .running ∧ x'.remaining = x.remaining) ∨
      ((status = .pending ∨ status = .starting) ∧ x.remaining = x'.remaining + 1)
  else status ≠ .running ∧ x'.remaining = x.remaining

/-- What is answered to a request, which succeeds. No deadline passes while a start
build is under way. -/
def Answers (x x' : Recovery σ) : {β : Type} → Call β → β → Prop
  | _, .beforeDeadline, before => x'.coder = x.coder ∧ x'.remaining = x.remaining ∧
      (before = false → ∀ id w, S.workspace x.coder id = some w → ¬UnderWay w.latest)
  | _, .workspaceBuild url buildId, build =>
      S.answers (.workspaceBuild url buildId) x.coder (.ok build) x'.coder ∧
        ∃ id w, S.workspace x.coder id = some w ∧ w.latest.id = buildId ∧
          x.Polls x' w.latest build.status
  | _, c, answer => S.answers c x.coder (.ok answer) x'.coder ∧ x'.remaining = x.remaining

/-- What one operation does when no transaction and no request fails. -/
def Performs (x x' : Recovery σ) : {β : Type} → Op β → Except WorkerError β → Prop
  | _, .call c, answer => x'.world = x.world ∧ ∃ a, answer = .ok a ∧ Answers S x x' c a
  | _, o, answer => x'.coder = x.coder ∧ x'.remaining = x.remaining ∧
      ∃ reply : Reply, (∀ e, reply ≠ .fail e) ∧ x.world.perform reply o = (answer, x'.world)

def cooperative : Semantics Op WorkerError (Recovery σ) :=
  fun _ o x answer x' => Performs S x x' o answer

def withStore (x : Recovery σ) (s : Store) : Recovery σ :=
  { x with world := { x.world with store := s } }

def withCoder (x : Recovery σ) (r : σ) : Recovery σ := { x with coder := r }

end Recovery

/-- The program ends like this, against a cooperative deployment. -/
abbrev EndsWell {σ α : Type} (S : WorkspaceService σ) (p : Worker α) (x : Recovery σ)
    (ok : α → Recovery σ → Prop) : Prop :=
  Upholds (Recovery.cooperative S) (fun _ => True) False p x ok (fun _ _ => False)

namespace Recovery
variable {σ α : Type} {S : WorkspaceService σ} {x x' : Recovery σ} {ok : α → Recovery σ → Prop}
  {err : WorkerError → Recovery σ → Prop}

theorem upholds_query {q : Query α} {a : α} (answer : x.world.store.answer q = .ok a) :
    Upholds (cooperative S) (fun _ => True) False (query q) x ok err ↔ ok a x := by
  refine upholds_perform.trans ⟨fun h => ?_, fun h => ⟨?_, ?_⟩⟩
  · refine (h.1 a x ⟨rfl, rfl, .done, nofun, ?_⟩).2
    have hdone : ∀ e : WorkerError, Reply.done ≠ .fail e := nofun
    exact (World.perform_reads x.world q hdone).trans (by rw [answer])
  · rintro b x' ⟨hcoder, hremaining, reply, hfail, hperformed⟩
    rw [World.perform_reads _ _ hfail, answer] at hperformed
    obtain ⟨hb, hworld⟩ := Prod.mk.inj hperformed
    cases hb
    rw [Recovery.ext hworld.symm hcoder hremaining]
    exact ⟨trivial, h⟩
  · rintro e x' ⟨-, -, reply, hfail, hperformed⟩
    rw [World.perform_reads _ _ hfail, answer] at hperformed
    cases (Prod.mk.inj hperformed).1

theorem upholds_transact {t : Transaction α} {a : α} {s : Store}
    (commits : ∀ token, x.world.store.transact token t = .ok (a, s)) :
    Upholds (cooperative S) (fun _ => True) False (transact t) x ok err ↔ ok a (x.withStore s) := by
  refine upholds_perform.trans ⟨fun h => ?_, fun h => ⟨?_, ?_⟩⟩
  · exact (h.1 a (x.withStore s) ⟨rfl, rfl, .done, nofun, World.perform_commits commits nofun⟩).2
  · rintro b x' ⟨hcoder, hremaining, reply, hfail, hperformed⟩
    rw [World.perform_commits commits hfail] at hperformed
    obtain ⟨hb, hworld⟩ := Prod.mk.inj hperformed
    cases hb
    rw [Recovery.ext (y := x.withStore s) hworld.symm hcoder hremaining]
    exact ⟨trivial, h⟩
  · rintro e x' ⟨-, -, reply, hfail, hperformed⟩
    rw [World.perform_commits commits hfail] at hperformed
    cases (Prod.mk.inj hperformed).1

theorem upholds_read {c : Call α} {a : α}
    (plain : ∀ x' b, Answers S x x' c b ↔
      S.answers c x.coder (.ok b) x'.coder ∧ x'.remaining = x.remaining)
    (reads : ∀ r b, S.answers c x.coder (.ok b) r ↔ b = a ∧ r = x.coder) :
    Upholds (cooperative S) (fun _ => True) False (request c) x ok err ↔ ok a x := by
  refine upholds_perform.trans ⟨fun h => ?_, fun h => ⟨?_, ?_⟩⟩
  · exact (h.1 a x ⟨rfl, a, rfl, (plain _ _).mpr ⟨(reads _ _).mpr ⟨rfl, rfl⟩, rfl⟩⟩).2
  · rintro b x' ⟨hworld, b', hb, hanswers⟩
    cases hb
    obtain ⟨hserved, hremaining⟩ := (plain _ _).mp hanswers
    obtain ⟨rfl, hcoder⟩ := (reads _ _).mp hserved
    rw [Recovery.ext (x := x') (y := x) hworld hcoder hremaining]
    exact ⟨trivial, h⟩
  · rintro e x' ⟨-, b, hb, -⟩
    cases hb

theorem upholds_request {c : Call α}
    (plain : ∀ x' b, Answers S x x' c b ↔
      S.answers c x.coder (.ok b) x'.coder ∧ x'.remaining = x.remaining)
    (next : ∀ r b, S.answers c x.coder (.ok b) r → ok b (x.withCoder r)) :
    Upholds (cooperative S) (fun _ => True) False (request c) x ok err := by
  refine upholds_perform.mpr ⟨?_, ?_⟩
  · rintro b x' ⟨hworld, b', hb, hanswers⟩
    cases hb
    obtain ⟨hserved, hremaining⟩ := (plain _ _).mp hanswers
    rw [Recovery.ext (x := x') (y := x.withCoder x'.coder) hworld rfl hremaining]
    exact ⟨trivial, next _ _ hserved⟩
  · rintro e x' ⟨-, b, hb, -⟩
    cases hb

theorem upholds_beforeDeadline {ok : Bool → Recovery σ → Prop} {id : UUID} {w : RemoteWorkspace}
    (row : S.workspace x.coder id = some w) (underWay : UnderWay w.latest) :
    Upholds (cooperative S) (fun _ => True) False (request .beforeDeadline) x ok err ↔ ok true x := by
  refine upholds_perform.trans ⟨fun h => ?_, fun h => ⟨?_, ?_⟩⟩
  · exact (h.1 true x ⟨rfl, true, rfl, rfl, rfl, nofun⟩).2
  · rintro before x' ⟨hworld, b, hb, hcoder, hremaining, hlate⟩
    cases hb
    cases before with
    | false => exact absurd underWay (hlate rfl id w row)
    | true =>
        rw [Recovery.ext (x := x') (y := x) hworld hcoder hremaining]
        exact ⟨trivial, h⟩
  · rintro e x' ⟨-, b, hb, -⟩
    cases hb

theorem upholds_workspaceBuild [S.Lawful] {ok : CoderWorkspaceBuild → Recovery σ → Prop}
    {url : InstanceUrl} {id : UUID} {w : RemoteWorkspace} (row : S.workspace x.coder id = some w)
    (next : ∀ status r remaining, S.workspace r id = some (w.observed status) →
      x.Polls ⟨x.world, r, remaining⟩ w.latest status →
        ok ⟨w.latest.id, status, w.latest.transition⟩ ⟨x.world, r, remaining⟩) :
    Upholds (cooperative S) (fun _ => True) False (request (.workspaceBuild url w.latest.id)) x ok
      err := by
  refine upholds_perform.mpr ⟨?_, ?_⟩
  · rintro build x' ⟨hworld, b, hb, hserved, id', w', hrow, hlatest, hpolls⟩
    cases hb
    obtain rfl : id = id' := WorkspaceService.Lawful.apart _ id id' w w' row hrow hlatest.symm
    obtain rfl : w = w' := Option.some.inj (row.symm.trans hrow)
    obtain ⟨hbuild, hobserved⟩ :=
      WorkspaceService.Lawful.polls x.coder x'.coder url id w build row hserved
    have hx : x' = ⟨x.world, x'.coder, x'.remaining⟩ := Recovery.ext hworld rfl rfl
    refine ⟨trivial, ?_⟩
    rw [hbuild, hx]
    exact next build.status x'.coder x'.remaining hobserved (hx ▸ hpolls)
  · rintro e x' ⟨-, b, hb, -⟩
    cases hb

theorem upholds_idle [S.Lawful] {ok : CoderWorkspaceBuild → Recovery σ → Prop}
    {url : InstanceUrl} {id : UUID} {w : RemoteWorkspace} (row : S.workspace x.coder id = some w)
    (start : w.latest.transition ≠ .start) (waiting : w.latest.status ≠ .running)
    (h : Upholds (cooperative S) (fun _ => True) False (request (.workspaceBuild url w.latest.id)) x
      ok err) :
    ∃ r, S.workspace r id = some w ∧
      ok ⟨w.latest.id, w.latest.status, w.latest.transition⟩ (x.withCoder r) := by
  obtain ⟨r, hserved⟩ := WorkspaceService.Lawful.idles x.coder url id w row
  have hobserved := (WorkspaceService.Lawful.polls x.coder r url id w _ row hserved).2
  refine ⟨r, hobserved, ((upholds_perform.mp h).1 _ (x.withCoder r)
    ⟨rfl, _, rfl, hserved, id, w, row, rfl, ?_⟩).2⟩
  unfold Polls
  rw [if_neg start]
  exact ⟨waiting, rfl⟩

end Recovery

def Working (c : ExecutionClaim) (id : UUID) (s : Store) : Prop :=
  ∃ job r, s.jobs.lookup c.jobId = some job ∧ job.taskName = c.taskName ∧ job.step = c.step ∧
    job.attempt = c.attempt ∧ job.status = .running ∧ job.resourceType = some .workspace ∧
    job.resourceId = some id ∧ s.lifecycle .workspace id = some r ∧
    resourceMatches c.jobId job (some r) = true

namespace Working
variable {c : ExecutionClaim} {id : UUID} {s : Store}

theorem owned (h : Working c id s) : ∃ job, s.ownedExecution c = some job ∧
    job.resourceType = some .workspace ∧ job.resourceId = some id := by
  obtain ⟨job, r, hjob, htask, hstep, hattempt, hrunning, htype, hid, hr, hmatch⟩ := h
  have hresource : s.resourceForJob job = some r := by
    simp only [Store.resourceForJob, htype, hid, hr]
  refine ⟨job, ?_, htype, hid⟩
  simp only [Store.ownedExecution, hjob, hresource, htask, hstep, hattempt, hrunning, hmatch,
    and_self, if_true]

theorem heartbeat (h : Working c id s) : ∃ s', Working c id s' ∧
    ∀ token, s.transact token (.heartbeatExecution c) = .ok (true, s') := by
  obtain ⟨job, howned, -⟩ := h.owned
  obtain ⟨job', r, hjob, htask, hstep, hattempt, hrunning, htype, hid, hr, hmatch⟩ := h
  refine ⟨s.modifyJob c.jobId fun job => { job with claimedAt := some s.now }, ?_, fun token => ?_⟩
  · refine ⟨{ job' with claimedAt := some s.now }, r, ?_, htask, hstep, hattempt, hrunning, htype,
      hid, ?_, hmatch⟩
    · simp only [Store.modifyJob, Table.lookup_modify_self, hjob, Option.map_some]
    · rw [Store.lifecycle_modifyJob]
      exact hr
  · simp only [Store.transact, Store.heartbeatExecution, howned]

theorem stores (h : Working c id s) (workspaceId buildId : UUID) : ∃ s', Working c id s' ∧
    ∀ token, s.transact token (.storeWorkspaceRemoteIds c workspaceId buildId) = .ok (true, s') := by
  obtain ⟨job, howned, htype, hid⟩ := h.owned
  obtain ⟨job', r, hjob, htask, hstep, hattempt, hrunning, htype', hid', hr, hmatch⟩ := h
  refine ⟨{ s with workspaces := s.workspaces.modify id fun w => { w with
    coderWorkspaceId := some workspaceId, coderWorkspaceBuildId := some buildId } }, ?_,
    fun token => ?_⟩
  · refine ⟨job', r, hjob, htask, hstep, hattempt, hrunning, htype', hid', ?_, hmatch⟩
    rw [← hr]
    simp only [Store.lifecycle, Table.lookup_modify_self, Option.map_map, Function.comp_def]
  · simp only [Store.transact, Store.storeWorkspaceRemoteIds, howned, htype, hid]

theorem completes (h : Working c id s) (workspaceId buildId : Option UUID)
    (applyParameters : Bool) : ∃ s', (∃ w, s'.workspaces.lookup id = some w ∧ w.status = .success) ∧
    ∀ token, s.transact token (.completeExecution c
      (.convergeWorkspace workspaceId buildId applyParameters) false) = .ok (true, s') := by
  obtain ⟨job, howned, htype, hid⟩ := h.owned
  obtain ⟨job', r, hjob, htask, hstep, hattempt, hrunning, htype', hid', hr, hmatch⟩ := h
  obtain ⟨w, hw, rfl⟩ := Option.map_eq_some_iff.mp hr
  refine ⟨Store.settleExecution { s with workspaces := s.workspaces.modify id fun w => { w with
    coderWorkspaceId := workspaceId <|> w.coderWorkspaceId
    coderWorkspaceBuildId := buildId <|> w.coderWorkspaceBuildId
    appliedParametersRevision := if applyParameters then some w.parametersRevision
      else w.appliedParametersRevision } } c job, ?_, fun token => ?_⟩
  · simp only [Store.settleExecution, Store.modifyResource, htype, hid, Store.modifyLifecycle,
      Store.modifyJob, Table.lookup_modify_self, hw, Option.map_some, Option.some.injEq,
      exists_eq_left']
  · simp only [Store.transact, Store.completeExecution, howned, Mutation.apply, htype, hid]
    rfl

end Working

theorem Sound.claims {s : Store} (hs : Sound s) {id j : UUID} {w : Workspace} {step : StepName}
    (row : s.workspaces.lookup id = some w) (waiting : w.status = .pending ∨ w.status = .error)
    (current : w.jobId = some j) (atStep : w.step = some step) : ∃ c s', Working c id s' ∧
      c.resourceId = some id ∧ s'.workspaceRemoteSnapshot id = s.workspaceRemoteSnapshot id ∧
      ∀ token, s.transact token (.claimExecution j step.task) = .ok (some c, s') := by
  have hlifecycle : s.lifecycle .workspace id = some w.toLifecycle := by
    rw [Store.lifecycle, row]
    rfl
  have hactive : w.status ≠ .success := by rcases waiting with h | h <;> simp [h]
  obtain ⟨jobId, job, hj, hjob, htype, hid, hstep, haction, hstatus, -, htask⟩ :=
    hs.active_job hlifecycle hactive
  cases current.symm.trans hj
  cases atStep.symm.trans hstep
  have hmatch : resourceMatches j job (some w.toLifecycle) = true := by
    simp only [resourceMatches, htype, haction, hj, hstep, beq_self_eq_true, Bool.and_self]
  have hresource : s.resourceForJob job = some w.toLifecycle := by
    simp only [Store.resourceForJob, htype, hid, hlifecycle]
  refine ⟨{ job with status := .running, attempt := job.attempt + 1, claimedAt := some s.now }.claim j,
    (s.modifyJob j fun _ => { job with
      status := .running, attempt := job.attempt + 1, claimedAt := some s.now }).modifyResource job
        fun r => { r with status := .running }, ?_, hid, ?_, fun token => ?_⟩
  · refine ⟨{ job with status := .running, attempt := job.attempt + 1, claimedAt := some s.now },
      { w.toLifecycle with status := .running }, ?_, rfl, rfl, rfl, rfl, htype, hid, ?_, hmatch⟩
    · rw [Store.jobs_modifyResource]
      simp only [Store.modifyJob, JobExecution.claim, Table.lookup_modify_self, hjob, Option.map_some]
    · rw [Store.lifecycle_modifyResource, Store.lifecycle_modifyJob, hlifecycle,
        if_pos (JobExecution.lease_owner.mpr ⟨htype, hid⟩)]
      rfl
  · simp only [Store.modifyResource, htype, hid, Store.modifyLifecycle, Store.modifyJob,
      Store.workspaceRemoteSnapshot, Table.lookup_modify_self, row, Option.map_some]
    rfl
  · have hidle : job.status = .pending ∨ job.status = .error := by
      rw [hstatus]
      exact waiting
    simp only [Store.transact, Store.claimExecution, hjob, hresource, hmatch, if_true]
    rw [if_neg (by simpa [htask] using fun h => hidle.resolve_left h)]

section Waiting
variable {σ : Type} {S : WorkspaceService σ} {c : ExecutionClaim} {id : UUID}
  {x : Recovery σ} {url : InstanceUrl}

theorem endsWell_heartbeat (working : Working c id x.world.store) {ok : Unit → Recovery σ → Prop}
    (next : ∀ s, Working c id s → ok () (x.withStore s)) : EndsWell S (workspaceHeartbeat c) x ok := by
  obtain ⟨s, hs, commits⟩ := working.heartbeat
  exact upholds_bind.mpr ((Recovery.upholds_transact commits).mpr (next s hs))

variable [S.Lawful]

/-- A start build that has not failed is waited for until it runs. -/
theorem endsWell_waitWorkspaceBuild {rid : UUID} {w : RemoteWorkspace} {fuel : Nat}
    (working : Working c id x.world.store) (row : S.workspace x.coder rid = some w)
    (starts : w.latest.status = .running ∨ w.latest.transition = .start)
    (alive : ¬w.latest.status.Failing)
    (enough : if w.latest.status = .running then 0 < fuel else x.remaining + 1 < fuel) :
    EndsWell S (waitWorkspaceBuild url .running (workspaceHeartbeat c) fuel
      ⟨w.latest.id, w.latest.status, w.latest.transition⟩) x
      (fun _ x' => Working c id x'.world.store) := by
  induction fuel generalizing x w with
  | zero =>
      split at enough
      · exact absurd enough (Nat.lt_irrefl 0)
      · exact absurd enough (Nat.not_lt_zero _)
  | succ fuel ih =>
      refine upholds_ite (fun _ => working) fun hrunning => ?_
      refine upholds_ite (fun hfailed => absurd hfailed alive) fun _ => ?_
      have start := starts.resolve_left hrunning
      have hunderWay : Recovery.UnderWay w.latest :=
        ⟨start, hrunning, fun h => alive (.inl h), fun h => alive (.inr (.inl h)),
          fun h => alive (.inr (.inr h))⟩
      refine upholds_bind.mpr ((Recovery.upholds_beforeDeadline row hunderWay).mpr ?_)
      refine upholds_bind.mpr (endsWell_heartbeat working fun s hs => ?_)
      refine upholds_bind.mpr (Recovery.upholds_workspaceBuild (x := x.withStore s) row ?_)
      intro status r remaining hrow hpolls
      rw [if_neg hrunning] at enough
      unfold Recovery.Polls at hpolls
      rw [if_pos start] at hpolls
      have hnext : ¬status.Failing ∧
          if status = .running then 0 < fuel else remaining + 1 < fuel := by
        rcases hpolls with ⟨rfl, -⟩ | ⟨hstatus, hless⟩
        · exact ⟨by simp [BuildStatus.Failing], by simp only [if_true]; omega⟩
        · have hne : status ≠ .running := by rcases hstatus with h | h <;> simp [h]
          have hless : x.remaining = remaining + 1 := hless
          refine ⟨?_, by rw [if_neg hne]; omega⟩
          rcases hstatus with h | h <;> simp [BuildStatus.Failing, h]
      exact ih (x := ⟨(x.withStore s).world, r, remaining⟩) (w := w.observed status) hs hrow
        (.inr start) hnext.1 hnext.2

theorem not_endsWell_waitWorkspaceBuild {rid : UUID} {w : RemoteWorkspace} {fuel : Nat}
    (working : Working c id x.world.store) (row : S.workspace x.coder rid = some w)
    (start : w.latest.transition ≠ .start) (waiting : w.latest.status ≠ .running)
    {ok : CoderWorkspaceBuild → Recovery σ → Prop} :
    ¬EndsWell S (waitWorkspaceBuild url .running (workspaceHeartbeat c) fuel
      ⟨w.latest.id, w.latest.status, w.latest.transition⟩) x ok := by
  induction fuel generalizing x w with
  | zero => exact fun h => h
  | succ fuel ih =>
      intro h
      unfold waitWorkspaceBuild at h
      simp only [waiting, if_false] at h
      split at h
      · exact h
      · have hdeadline := (upholds_perform.mp (upholds_bind.mp h)).1 true x
          ⟨rfl, true, rfl, rfl, rfl, nofun⟩
        obtain ⟨s, hs, commits⟩ := working.heartbeat
        have hbeat := (Recovery.upholds_transact commits).mp (upholds_bind.mp (upholds_bind.mp
          hdeadline.2))
        obtain ⟨r, hrow, hrest⟩ := Recovery.upholds_idle (x := x.withStore s) row start waiting
          (upholds_bind.mp hbeat)
        exact ih (x := (x.withStore s).withCoder r) hs hrow start waiting hrest

end Waiting

namespace WorkspaceService
variable {σ : Type} (S : WorkspaceService σ)

def entry (r : σ) (id : UUID) : Option (UUID × RemoteWorkspace) :=
  (S.workspace r id).map fun w => (id, w)

def find (r : σ) (snapshot : WorkspaceRemoteSnapshot) : Option (UUID × RemoteWorkspace) :=
  match snapshot.coderWorkspaceId.bind (S.entry r) with
  | some found => some found
  | none => (S.named r snapshot.username snapshot.name).bind (S.entry r)

variable {S} {r : σ} {snapshot : WorkspaceRemoteSnapshot} {rid : UUID} {w : RemoteWorkspace}

theorem view_eq (id : UUID) : S.view r id = (S.entry r id).map fun p => p.2.view p.1 := by
  simp only [view, entry, Option.map_map, Function.comp_def]

theorem workspace_entry {found : Option UUID} (h : found.bind (S.entry r) = some (rid, w)) :
    S.workspace r rid = some w := by
  obtain ⟨id, -, hentry⟩ := Option.bind_eq_some_iff.mp h
  obtain ⟨w', hrow, heq⟩ := Option.map_eq_some_iff.mp hentry
  cases heq
  exact hrow

theorem workspace_find (h : S.find r snapshot = some (rid, w)) : S.workspace r rid = some w := by
  unfold find at h
  split at h
  · rename_i found hfound
    cases h
    exact workspace_entry hfound
  · exact workspace_entry h

end WorkspaceService

section Attempts
variable {σ : Type} {S : WorkspaceService σ} {c : ExecutionClaim} {id : UUID}
  {x : Recovery σ} {snapshot : WorkspaceRemoteSnapshot} {fuel : Nat} {rid : UUID} {w : RemoteWorkspace}

def InSuccess (id : UUID) (s : Store) : Prop :=
  ∃ w, s.workspaces.lookup id = some w ∧ w.status = .success

theorem endsWell_requireMatchingTemplate {α : Type} {k : Unit → Worker α}
    {ok : α → Recovery σ → Prop} :
    EndsWell S (requireMatchingTemplate (w.view rid) snapshot >>= k) x ok ↔
      w.templateId = snapshot.coderTemplateId ∧ EndsWell S (k ()) x ok := by
  unfold requireMatchingTemplate
  by_cases h : w.templateId = snapshot.coderTemplateId
  · rw [if_neg (by simp [RemoteWorkspace.view, h])]
    exact (and_iff_right h).symm
  · rw [if_pos (by simp [RemoteWorkspace.view, h])]
    exact ⟨fun hfalse => hfalse.elim, fun hfalse => absurd hfalse.1 h⟩

theorem endsWell_complete (working : Working c id x.world.store) (workspaceId buildId : Option UUID)
    (applyParameters : Bool) :
    EndsWell S (completeWorkspace c workspaceId buildId applyParameters) x
      (fun _ x' => InSuccess id x'.world.store) := by
  obtain ⟨s, hsettled, commits⟩ := working.completes workspaceId buildId applyParameters
  exact upholds_bind.mpr ((Recovery.upholds_transact commits).mpr hsettled)

variable [S.Lawful]

theorem endsWell_findRemoteWorkspace {ok : Option CoderWorkspace → Recovery σ → Prop} :
    EndsWell S (findRemoteWorkspace snapshot) x ok ↔
      ok ((S.find x.coder snapshot).map fun p => p.2.view p.1) x := by
  have byName : EndsWell S (request (.workspaceByOwnerAndName snapshot.instanceUrl
      snapshot.username snapshot.name)) x ok ↔ ok (((S.named x.coder snapshot.username
        snapshot.name).bind (S.entry x.coder)).map fun p => p.2.view p.1) x := by
    refine Recovery.upholds_read (fun _ _ => Iff.rfl) fun r found => ?_
    rw [Option.map_bind, Lawful.readWorkspaceByName]
    simp only [Function.comp_def, ← view_eq]
  unfold findRemoteWorkspace find
  cases snapshot.coderWorkspaceId with
  | none => exact byName
  | some workspaceId =>
      refine upholds_bind.trans ((Recovery.upholds_read (fun _ _ => Iff.rfl)
        (Lawful.readWorkspace x.coder · _ workspaceId)).trans ?_)
      rw [view_eq, Option.bind_some]
      cases S.entry x.coder workspaceId with
      | none => exact byName
      | some p => exact Iff.rfl

theorem endsWell_await (working : Working c id x.world.store)
    (row : S.workspace x.coder rid = some w)
    (starts : w.latest.status = .running ∨ w.latest.transition = .start)
    (alive : ¬w.latest.status.Failing) (enough : x.remaining + 1 < fuel) (remote : CoderWorkspace) :
    EndsWell S (Tasks.awaitCreation fuel c snapshot
      (remote, ⟨w.latest.id, w.latest.status, w.latest.transition⟩)) x
      (fun _ x' => InSuccess id x'.world.store) := by
  obtain ⟨s, hs, commits⟩ := working.stores remote.id w.latest.id
  refine upholds_bind.mpr ((Recovery.upholds_transact commits).mpr ?_)
  refine .bind (endsWell_waitWorkspaceBuild (x := x.withStore s) hs row starts alive ?_) ?_
    (fun _ _ h => h)
  · split
    · omega
    · exact enough
  · exact fun build x' hworking => endsWell_complete hworking _ _ _

theorem not_endsWell_await (working : Working c id x.world.store)
    (row : S.workspace x.coder rid = some w) (start : w.latest.transition ≠ .start)
    (waiting : w.latest.status ≠ .running) (remote : CoderWorkspace)
    {ok : TaskStatus → Recovery σ → Prop} : ¬EndsWell S (Tasks.awaitCreation fuel c snapshot
      (remote, ⟨w.latest.id, w.latest.status, w.latest.transition⟩)) x ok := by
  intro h
  obtain ⟨s, hs, commits⟩ := working.stores remote.id w.latest.id
  have hwait := (Recovery.upholds_transact commits).mp (upholds_bind.mp h)
  exact not_endsWell_waitWorkspaceBuild (x := x.withStore s) hs row start waiting
    (upholds_bind.mp hwait)

theorem endsWell_restart (working : Working c id x.world.store)
    (row : S.workspace x.coder rid = some w) (enough : x.remaining + 1 < fuel)
    (parameters : List (String × String)) (remote : CoderWorkspace) :
    EndsWell S (do
      let build ← request (.createWorkspaceStartBuild snapshot.instanceUrl rid parameters)
      Tasks.awaitCreation fuel c snapshot (remote, build)) x
      (fun _ x' => InSuccess id x'.world.store) := by
  refine upholds_bind.mpr (Recovery.upholds_request (fun _ _ => Iff.rfl) fun r build hserved => ?_)
  obtain ⟨hstart, halive, hrow⟩ := Lawful.starts x.coder r _ rid w parameters build row hserved
  have hbuild : build = ⟨build.id, build.status, .start⟩ := by rw [← hstart]
  rw [hbuild]
  exact endsWell_await (x := x.withCoder r) (w := { w with
    latest := ⟨build.id, .start, build.status, parameters⟩ }) working hrow (.inr rfl) halive enough
    remote

/-- A creation without parameters waits on the build it finds, which is then a start
build, or running, or over. -/
def Startable (w : RemoteWorkspace) (parameters : List (String × String)) : Prop :=
  parameters = [] → w.latest.transition ≠ .start →
    w.latest.status = .running ∨ Tasks.restartStatuses.contains w.latest.status = true

theorem not_failing_of_kept {status : BuildStatus}
    (kept : Tasks.restartStatuses.contains status = false) : ¬status.Failing := by
  rintro (rfl | rfl | rfl) <;> cases kept

theorem endsWell_currentParameters (row : S.workspace x.coder rid = some w) {α : Type}
    {k : List (String × String) → Worker α} {ok : α → Recovery σ → Prop} :
    EndsWell S (Tasks.currentParameters snapshot (w.view rid) >>= k) x ok ↔
      EndsWell S (k (if w.latest.transition = .start then w.latest.parameters else [])) x ok := by
  unfold Tasks.currentParameters
  by_cases start : w.latest.transition = .start
  · rw [if_pos (show (w.view rid).latestBuildTransition = .start from start),
      if_pos start]
    exact upholds_bind.trans (Recovery.upholds_read (fun _ _ => Iff.rfl) fun r parameters =>
      Lawful.readParameters x.coder r _ rid w parameters row)
  · rw [if_neg (show ¬(w.view rid).latestBuildTransition = .start from start),
      if_neg start]
    exact Iff.rfl

/-- Adopting a workspace of the template converges unless it waits on the wrong build. -/
theorem endsWell_adopt_iff (working : Working c id x.world.store)
    (row : S.workspace x.coder rid = some w) (enough : x.remaining + 1 < fuel) :
    EndsWell S (do
      let build ← Tasks.creationBuild snapshot (w.view rid) false
      Tasks.awaitCreation fuel c snapshot (w.view rid, build)) x
      (fun _ x' => InSuccess id x'.world.store) ↔ Startable w snapshot.parameters := by
  rw [Tasks.creationBuild_found, Prog.then_assoc, endsWell_currentParameters row]
  generalize hcurrent : (if w.latest.transition = .start then w.latest.parameters else []) = current
  unfold Tasks.adoptBuild
  split
  · rename_i hrestart
    refine iff_of_true (endsWell_restart working row enough _ _) fun hempty hstart => ?_
    rw [if_neg hstart] at hcurrent
    exact .inr (hrestart.resolve_left fun hne => hne (hcurrent.symm.trans hempty.symm))
  · rename_i hkept
    simp only [not_or, not_not, Bool.not_eq_true] at hkept
    obtain ⟨hsame, hkept⟩ := hkept
    have hkept : Tasks.restartStatuses.contains w.latest.status = false := hkept
    by_cases start : w.latest.status = .running ∨ w.latest.transition = .start
    · refine iff_of_true (endsWell_await working row start (not_failing_of_kept hkept) enough _) ?_
      exact fun _ hne => .inl (start.resolve_right hne)
    · rw [not_or] at start
      rw [if_neg start.2] at hcurrent
      refine iff_of_false (not_endsWell_await working row start.2 start.1 _) fun h => ?_
      rcases h (hsame.symm.trans hcurrent.symm) start.2 with hrunning | hrestart
      · exact start.1 hrunning
      · rw [hkept] at hrestart
        cases hrestart

theorem endsWell_create (working : Working c id x.world.store) (enough : x.remaining + 1 < fuel) :
    EndsWell S (Tasks.creationTarget snapshot none >>= Tasks.awaitCreation fuel c snapshot) x
      (fun _ x' => InSuccess id x'.world.store) := by
  simp only [Tasks.creationTarget, Prog.then_assoc]
  refine upholds_bind.mpr (Recovery.upholds_request (fun _ _ => Iff.rfl) fun r made hserved => ?_)
  obtain ⟨w, hrow, hmade, htemplate, hstart, halive⟩ := Lawful.creates x.coder r _ _ _ _ _ made hserved
  rw [hmade]
  refine endsWell_requireMatchingTemplate.mpr ⟨htemplate, ?_⟩
  exact endsWell_await (x := x.withCoder r) working hrow (.inr hstart) halive enough _

def CreationRecovers (S : WorkspaceService σ) (r : σ) (snapshot : WorkspaceRemoteSnapshot) :
    Prop :=
  ∀ rid w, S.find r snapshot = some (rid, w) →
    w.templateId = snapshot.coderTemplateId ∧ Startable w snapshot.parameters

def UpdateRecovers (S : WorkspaceService σ) (r : σ) (snapshot : WorkspaceRemoteSnapshot) : Prop :=
  ∃ rid w, S.find r snapshot = some (rid, w) ∧ w.templateId = snapshot.coderTemplateId

theorem endsWell_snapshot (resource : c.resourceId = some id)
    (read : x.world.store.workspaceRemoteSnapshot id = .ok snapshot)
    {k : WorkspaceRemoteSnapshot → Option CoderWorkspace → Worker TaskStatus}
    {ok : TaskStatus → Recovery σ → Prop} :
    EndsWell S (do
      let workspaceId ← liftExcept c.requiredResourceId
      let snapshot ← query (.workspaceRemoteSnapshot workspaceId)
      request (.authenticatePreparedAdmin snapshot.instanceUrl snapshot.password)
      let found ← findRemoteWorkspace snapshot
      k snapshot found) x ok ↔
      EndsWell S (k snapshot ((S.find x.coder snapshot).map fun p => p.2.view p.1)) x
        ok := by
  have hanswer : x.world.store.answer (.workspaceRemoteSnapshot id) = .ok snapshot := read
  simp only [ExecutionClaim.requiredResourceId, resource, liftExcept]
  refine upholds_bind.trans (upholds_pure.trans (upholds_bind.trans
    ((Recovery.upholds_query hanswer).trans ?_)))
  refine upholds_bind.trans ((Recovery.upholds_read (a := ()) (fun _ _ => Iff.rfl) ?_).trans ?_)
  · intro r u
    exact (Lawful.authenticates x.coder r _ _).trans (and_iff_right rfl).symm
  exact upholds_bind.trans endsWell_findRemoteWorkspace

theorem endsWell_createWorkspace_iff (working : Working c id x.world.store)
    (resource : c.resourceId = some id)
    (read : x.world.store.workspaceRemoteSnapshot id = .ok snapshot)
    (enough : x.remaining + 1 < fuel) :
    EndsWell S (Tasks.createWorkspace fuel c) x (fun _ x' => InSuccess id x'.world.store) ↔
      CreationRecovers S x.coder snapshot := by
  rw [Tasks.createWorkspace_eq, endsWell_snapshot resource read]
  cases hfind : S.find x.coder snapshot with
  | none =>
      exact iff_of_true (endsWell_create working enough) fun rid w h => nomatch hfind.symm.trans h
  | some p =>
      obtain ⟨rid, w⟩ := p
      have hrow := WorkspaceService.workspace_find hfind
      simp only [Tasks.creationTarget, Prog.then_assoc, Option.map_some]
      refine (endsWell_requireMatchingTemplate (w := w)).trans ?_
      refine (and_congr_right fun _ => endsWell_adopt_iff working hrow enough).trans ?_
      constructor
      · intro h rid' w' h'
        cases hfind.symm.trans h'
        exact h
      · exact fun h => h rid w hfind

theorem endsWell_updateBuild (working : Working c id x.world.store)
    (row : S.workspace x.coder rid = some w) (enough : x.remaining + 1 < fuel)
    {remote : CoderWorkspace} (same : remote.id = rid) (build : remote.latestBuild =
      ⟨w.latest.id, w.latest.status, w.latest.transition⟩) :
    EndsWell S (do
      let build ← Tasks.updateBuild snapshot remote
      Tasks.awaitCreation fuel c snapshot (remote, build)) x
      (fun _ x' => InSuccess id x'.world.store) := by
  subst same
  have hrestart : EndsWell S (do
      let build ← request (.createWorkspaceStartBuild snapshot.instanceUrl remote.id
        snapshot.parameters)
      Tasks.awaitCreation fuel c snapshot (remote, build)) x
      (fun _ x' => InSuccess id x'.world.store) := endsWell_restart working row enough _ remote
  simp only [Tasks.updateBuild, build]
  split
  · rename_i hstart
    rw [Prog.then_assoc]
    refine upholds_bind.mpr ((Recovery.upholds_read (fun _ _ => Iff.rfl) fun r parameters =>
      Lawful.readParameters x.coder r _ _ w parameters row).mpr ?_)
    split
    · have halive : ¬w.latest.status.Failing := by
        rcases hstart.2 with h | h | h <;> simp [BuildStatus.Failing, h]
      exact endsWell_await working row (.inr hstart.1) halive enough remote
    · exact hrestart
  · exact hrestart

theorem endsWell_renamed (working : Working c id x.world.store)
    (row : S.workspace x.coder rid = some w) (enough : x.remaining + 1 < fuel)
    {remote : CoderWorkspace} (same : remote.id = rid) (build : remote.latestBuild =
      ⟨w.latest.id, w.latest.status, w.latest.transition⟩) :
    EndsWell S (if snapshot.appliedParametersRevision ≠ some snapshot.parametersRevision then do
        let build ← Tasks.updateBuild snapshot remote
        Tasks.awaitCreation fuel c snapshot (remote, build)
      else completeWorkspace c (some remote.id) none false) x
      (fun _ x' => InSuccess id x'.world.store) :=
  upholds_ite (fun _ => endsWell_updateBuild working row enough same build)
    fun _ => endsWell_complete working _ _ _

theorem endsWell_updateWorkspace_iff (working : Working c id x.world.store)
    (resource : c.resourceId = some id)
    (read : x.world.store.workspaceRemoteSnapshot id = .ok snapshot)
    (enough : x.remaining + 1 < fuel) :
    EndsWell S (Tasks.updateWorkspace fuel c) x (fun _ x' => InSuccess id x'.world.store) ↔
      UpdateRecovers S x.coder snapshot := by
  refine (endsWell_snapshot resource read).trans ?_
  cases hfind : S.find x.coder snapshot with
  | none =>
      refine iff_of_false (fun h => h) ?_
      rintro ⟨rid, w, h, -⟩
      cases hfind.symm.trans h
  | some p =>
      obtain ⟨rid, w⟩ := p
      have hrow := WorkspaceService.workspace_find hfind
      have hrecovers : UpdateRecovers S x.coder snapshot ↔ w.templateId = snapshot.coderTemplateId := by
        constructor
        · rintro ⟨rid', w', h', hsame⟩
          cases hfind.symm.trans h'
          exact hsame
        · exact fun h => ⟨rid, w, hfind, h⟩
      rw [hrecovers]
      refine (endsWell_requireMatchingTemplate (w := w)).trans (and_iff_left ?_)
      by_cases hname : w.name = snapshot.name
      · rw [if_neg (show ¬(w.view rid).name ≠ snapshot.name from not_not.mpr hname)]
        exact endsWell_renamed working hrow enough rfl rfl
      · rw [if_pos (show (w.view rid).name ≠ snapshot.name from hname)]
        refine upholds_bind.mpr (Recovery.upholds_request (fun _ _ => Iff.rfl) fun r u hserved => ?_)
        have hrenamed := Lawful.renames x.coder r _ rid w snapshot.name hrow hserved
        exact endsWell_renamed (x := x.withCoder r) working hrenamed enough rfl rfl

end Attempts

theorem not_endsWell_failing {σ : Type} {S : WorkspaceService σ} {c : ExecutionClaim}
    {e : WorkerError} {x : Recovery σ} {α : Type} {ok : α → Recovery σ → Prop} :
    ¬EndsWell S (do
      transact (.failExecution c .none)
      (throw e : Worker α)) x ok := by
  intro h
  obtain ⟨hcommitted, hrefused⟩ := upholds_perform.mp (upholds_bind.mp h)
  cases hanswer : x.world.perform .done (.transaction (.failExecution c .none)) with
  | mk answer w' =>
      have hperforms : Recovery.Performs S x ⟨w', x.coder, x.remaining⟩
          (.transaction (.failExecution c .none)) answer := ⟨rfl, rfl, .done, nofun, hanswer⟩
      cases answer with
      | ok a => exact (hcommitted a _ hperforms).2
      | error e => exact (hrefused e _ hperforms).2

/-- An attempt ends well exactly when its operation does under the claim it is given. -/
theorem endsWell_runClaimedStep_iff {σ : Type} {S : WorkspaceService σ} {j : UUID}
    {task : TaskName} {c : ExecutionClaim}
    {operation : ExecutionClaim → Worker TaskStatus} {x : Recovery σ} {s : Store}
    {ok : TaskStatus → Recovery σ → Prop}
    (claims : ∀ token, x.world.store.transact token (.claimExecution j task) = .ok (some c, s)) :
    EndsWell S (runClaimedStep j task operation) x ok ↔ EndsWell S (operation c) (x.withStore s) ok := by
  refine upholds_bind.trans ((Recovery.upholds_transact claims).trans (upholds_tryCatch.trans ?_))
  constructor
  · exact fun h => h.mono (fun _ _ hok => hok) fun e x' hfailing => not_endsWell_failing hfailing
  · exact fun h => h.mono (fun _ _ hok => hok) fun _ _ hfalse => hfalse.elim

theorem workspace_job_step {name : JobName} {step : StepName}
    (made : name.resourceType = some .workspace) (flow : step ∈ name.steps) :
    (resourceActions name = some .creating → step = .workspaceCreateStep01) ∧
      (resourceActions name = some .updating → step = .workspaceUpdateStep01) := by
  cases name <;> simp_all [JobName.resourceType, resourceActions, JobName.steps]

theorem Run.password {w : World} {t : Trace} (h : Run w t) {id : UUID} {i : Instance}
    (row : w.store.instances.lookup id = some i) (success : i.status = .success) :
    ∃ envelope password, i.passwordEnc = some envelope ∧ envelope.decrypt id = some password := by
  have hcredited := h.credited id i row
  have hprovisioned : i.Provisioned := by
    rcases hcredited.kind with hready | hcreating | hdeleting
    · exact hready
    · exact .inr (.inr (.inr ⟨hcreating, success⟩))
    · exact absurd success (h.forward.deleting id i row hdeleting)
  obtain ⟨envelope, henvelope⟩ := Option.ne_none_iff_exists'.mp (hcredited.ready hprovisioned).1
  refine ⟨envelope, envelope.plaintext, henvelope, ?_⟩
  exact if_pos (hcredited.bound envelope (.inl henvelope))

theorem Run.reads_workspace {w : World} {t : Trace} (h : Run w t) {id : UUID} {ws : Workspace}
    {i : Instance} (row : w.store.workspaces.lookup id = some ws)
    (served : w.store.instances.lookup ws.instanceId = some i) (success : i.status = .success) :
    ∃ snapshot, w.store.workspaceRemoteSnapshot id = .ok snapshot := by
  obtain ⟨envelope, password, henvelope, hpassword⟩ := h.password served success
  obtain ⟨i', hi', hread⟩ := h.referenced.workspaceRemoteSnapshot h.sound.grounded row
  cases served.symm.trans hi'
  rcases hread with hnone | ⟨envelope', henvelope', hdecrypt⟩ | hsnapshot
  · rw [henvelope] at hnone
    cases hnone
  · rw [henvelope] at henvelope'
    cases henvelope'
    rw [hpassword] at hdecrypt
    cases hdecrypt
  · exact hsnapshot

end CoderManager
