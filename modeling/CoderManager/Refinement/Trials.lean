import CoderManager.PublicationTrials
import CoderManager.Refinement.Ownership

/-!
# The course of one publication

What each part of a publication comes to when no request fails: the recorded and
the named template are met as they are, the version found is waited for, and what
has been recognised is activated and recorded.
-/
namespace CoderManager
open Programs Tables

variable {σ : Type}

namespace Trial

def withStore (x : Trial σ) (s : Store) : Trial σ := { x with world := { x.world with store := s } }

theorem eq_withStore {x x' : Trial σ} {s : Store} (store : x'.world.store = s)
    (remote : x'.world.remote = x.world.remote) (looks : x'.looks = x.looks) : x' = x.withStore s := by
  obtain ⟨⟨store', remote'⟩, looks'⟩ := x'
  cases store
  cases remote
  cases looks
  rfl

end Trial

namespace PublicationTarget
variable {A : PublicationTarget σ} {I : ImportCourse} {α : Type} {claim : ExecutionClaim} {s : Store}
  {x x' : Trial σ}

/-- Whatever happens on the way, the program ends, and in one of the two ways. -/
abbrev Courses (A : PublicationTarget σ) (I : ImportCourse) (p : Worker α) (x : Trial σ)
    (ok : α → Trial σ → Prop) (err : WorkerError → Trial σ → Prop) : Prop :=
  Upholds (A.service.favourable I) (fun _ => True) False p x ok err

def noError : WorkerError → Trial σ → Prop := fun _ _ => False

def anyError : WorkerError → Trial σ → Prop := fun _ _ => True

section Operations
variable {ok : α → Trial σ → Prop} {err : WorkerError → Trial σ → Prop}

theorem courses_transact {t : Transaction α} {a : α}
    (commits : ∀ token, x.world.store.transact token t = .ok (a, s)) (next : ok a (x.withStore s)) :
    A.Courses I (transact t) x ok err := by
  have hperformed : ∀ {r x'}, A.service.favourable I (.transaction t) x r x' →
      r = .ok a ∧ x' = x.withStore s := by
    rintro r x' ⟨hperforms, hworking, hlooks⟩
    obtain ⟨reply, v, hperformed, hstore, hremote⟩ := hperforms.transacted
    have hfail : ∀ e, reply ≠ .fail e := by
      rintro e rfl
      cases hperformed
      exact hworking rfl
    rw [World.perform_commits commits hfail] at hperformed
    cases hperformed
    exact ⟨rfl, Trial.eq_withStore hstore hremote (Option.some.inj hlooks).symm⟩
  refine upholds_perform.mpr ⟨?_, ?_⟩
  · intro b x' h
    obtain ⟨hb, rfl⟩ := hperformed h
    cases hb
    exact ⟨trivial, next⟩
  · intro e x' h
    cases (hperformed h).1

theorem courses_refused {t : Transaction α} {e : WorkerError}
    (refused : ∀ token, x.world.store.transact token t = .error e) (next : err e x) :
    A.Courses I (transact t) x ok err := by
  have hperformed : ∀ {r x'}, A.service.favourable I (.transaction t) x r x' →
      r = .error e ∧ x' = x := by
    rintro r x' ⟨hperforms, hworking, hlooks⟩
    obtain ⟨reply, v, hperformed, hstore, hremote⟩ := hperforms.transacted
    simp only [World.perform, refused] at hperformed
    split at hperformed
    · cases hperformed
      exact absurd rfl hworking
    · cases hperformed
      exact ⟨rfl, Trial.eq_withStore hstore hremote (Option.some.inj hlooks).symm⟩
  refine upholds_perform.mpr ⟨?_, ?_⟩
  · intro b x' h
    cases (hperformed h).1
  · intro e' x' h
    obtain ⟨he, rfl⟩ := hperformed h
    cases he
    exact ⟨trivial, next⟩

theorem courses_any {t : Transaction α}
    (next : ∀ a x', x'.world.remote = x.world.remote → x'.looks = x.looks → ok a x')
    (raised : ∀ e x', err e x') : A.Courses I (transact t) x ok err := by
  refine upholds_perform.mpr ⟨?_, fun e x' _ => ⟨trivial, raised e x'⟩⟩
  rintro a x' ⟨hperforms, -, hlooks⟩
  obtain ⟨-, -, -, -, hremote⟩ := hperforms.transacted
  exact ⟨trivial, next a x' hremote (Option.some.inj hlooks).symm⟩

theorem courses_request {c : Call α} (next : ∀ a x', x'.world.store = x.world.store →
      A.service.answers c x.world.remote (.ok a) x'.world.remote →
      x.answered I (.call c) (.ok a) = some x'.looks → ok a x') :
    A.Courses I (request c) x ok err := by
  refine upholds_perform.mpr ⟨?_, ?_⟩
  · rintro a x' ⟨hperforms, -, hallowed⟩
    obtain ⟨hanswered, hstore⟩ := hperforms.call_cases
    exact ⟨trivial, next a x' hstore hanswered hallowed⟩
  · rintro e x' ⟨-, -, hallowed⟩
    cases c <;> cases hallowed

end Operations

/-- The claim owns the publication to this assignment. -/
structure Publishing (A : PublicationTarget σ) (claim : ExecutionClaim) (s : Store) : Prop where
  rows : ∃ job a i t, s.jobs.lookup claim.jobId = some job ∧ jobMatchesClaim job claim = true ∧
    s.assignments.lookup A.assignmentId = some a ∧ s.instances.lookup a.instanceId = some i ∧
    s.templates.lookup a.templateId = some t ∧
    jobOwnsSyncResource claim.jobId job a.templateId t A.assignmentId a = true

namespace Publishing

theorem of_lock {expected : Option UUID} {target : OwnedTemplateTarget}
    (h : s.lockOwnedTemplateTarget claim A.assignmentId expected = .ok target) :
    A.Publishing claim s := by
  obtain ⟨job, a, i, t, hjob, hmatch, ha, hi, ht, howns, -, -⟩ := Store.lockOwnedTemplateTarget_ok h
  exact ⟨job, a, i, t, hjob, hmatch, ha, hi, ht, howns⟩

theorem lock (h : A.Publishing claim s) :
    ∃ target, s.lockOwnedTemplateTarget claim A.assignmentId none = .ok target ∧
      target.deployment = s.deployments.lookup A.assignmentId := by
  obtain ⟨job, a, i, t, hjob, hmatch, ha, hi, ht, howns⟩ := h.rows
  refine ⟨⟨a.instanceId, i, a.templateId, t, a, s.deployments.lookup A.assignmentId⟩, ?_, rfl⟩
  simp only [Store.lockOwnedTemplateTarget, found, bind, Except.bind, hjob, hmatch, ha, hi, ht, howns,
    Option.any_none, Bool.not_true, Bool.false_eq_true, if_false]
  rfl

theorem of_eq {s' : Store} (h : A.Publishing claim s) (jobs : s'.jobs = s.jobs)
    (assignments : s'.assignments = s.assignments) (instances : s'.instances = s.instances)
    (templates : s'.templates = s.templates) : A.Publishing claim s' := by
  constructor
  rw [jobs, assignments, instances, templates]
  exact h.rows

theorem modifyDeployment (h : A.Publishing claim s) (id : UUID)
    (f : TemplateDeployment → TemplateDeployment) : A.Publishing claim (s.modifyDeployment id f) :=
  h.of_eq rfl rfl rfl rfl

theorem store_commits (h : A.Publishing claim s) {d : TemplateDeployment}
    (row : s.deployments.lookup A.assignmentId = some d)
    (organizationId templateId versionId : Option UUID) (token : String) :
    s.transact token (.storeTemplateRemoteIds claim A.assignmentId organizationId templateId
      versionId) = .ok ((), s.modifyDeployment A.assignmentId fun d =>
        d.identified organizationId templateId versionId) := by
  obtain ⟨target, hlock, hrow⟩ := h.lock
  simp only [Store.transact, Store.storeTemplateRemoteIds, bind, Except.bind, hlock, hrow, row, found]
  rfl

theorem finish_commits (h : A.Publishing claim s) {d : TemplateDeployment}
    (row : s.deployments.lookup A.assignmentId = some d) (commit : String) (revision : Nat)
    (success : Bool) (token : String) :
    s.transact token (.finishDeployment claim A.assignmentId commit revision success) =
      .ok ((), s.modifyDeployment A.assignmentId fun d => d.finished commit revision success) := by
  obtain ⟨target, hlock, hrow⟩ := h.lock
  simp only [Store.transact, Store.finishDeployment, bind, Except.bind, hlock, hrow, row]
  rfl

theorem heartbeat (h : A.Publishing claim s) : ∃ s', s'.deployments = s.deployments ∧
    A.Publishing claim s' ∧
    ∀ token, s.transact token (.heartbeatExecution claim) = .ok (true, s') := by
  obtain ⟨target, hlock, -⟩ := h.lock
  obtain ⟨job, howned⟩ := Store.ownedExecution_of_lock hlock
  refine ⟨s.modifyJob claim.jobId fun job => { job with claimedAt := some s.now }, rfl, ?_,
    fun token => ?_⟩
  · obtain ⟨job, a, i, t, hjob, hmatch, ha, hi, ht, howns⟩ := h.rows
    refine ⟨{ job with claimedAt := some s.now }, a, i, t, ?_, hmatch, ha, hi, ht, howns⟩
    simp [Store.modifyJob, hjob]
  · simp only [Store.transact, Store.heartbeatExecution, howned]

end Publishing

/-- The publication is owned and recorded, also with the template it goes on with. -/
structure Stage (A : PublicationTarget σ) (claim : ExecutionClaim) (remote : Option CoderTemplate)
    (s : Store) : Prop where
  publishing : A.Publishing claim s
  row : ∃ d, s.deployments.lookup A.assignmentId = some d ∧
    ∀ t, remote = some t → d.coderTemplateId = some t.id

def ReadyVersion (A : PublicationTarget σ) (versionId : UUID) (w : Setting σ) : Prop :=
  ∃ v, A.version w versionId = some v ∧ v.status = .succeeded

/-- Templates and versions are the same, and imports that had ended stay so. -/
structure Untouched (A : PublicationTarget σ) (w w' : Setting σ) : Prop where
  keeps : A.service.Keeps w.remote w'.remote
  finished : ∀ id v, A.version w id = some v → v.status.finished = true →
    ∃ v', A.version w' id = some v' ∧ v'.status = v.status

variable {w w' w'' : Setting σ} {remote : Option CoderTemplate}

theorem Untouched.of_eq (h : w'.remote = w.remote) : A.Untouched w w' := by
  constructor
  · rw [h]
    exact .refl _
  · intro id v hv _
    refine ⟨v, ?_, rfl⟩
    rw [version, h]
    exact hv

theorem Untouched.trans (h : A.Untouched w w') (h' : A.Untouched w' w'') : A.Untouched w w'' := by
  constructor
  · exact h.keeps.trans h'.keeps
  · intro id v hv hended
    obtain ⟨v', hv', hsame⟩ := h.finished id v hv hended
    obtain ⟨v'', hv'', hsame'⟩ := h'.finished id v' hv' (by rw [hsame]; exact hended)
    exact ⟨v'', hv'', hsame'.trans hsame⟩

theorem Untouched.request [A.service.Lawful A.url] {c : Call α} {answer : Except WorkerError α}
    (quiet : c.keepsTemplates = true)
    (answered : A.service.answers c x.world.remote answer x'.world.remote) :
    A.Untouched x.world x'.world := by
  have hkept : c.deletesTemplate = false := by
    cases c <;> first | rfl | cases quiet
  constructor
  · exact TemplateService.Lawful.keeps A.url _ _ c answer quiet answered
  · exact fun id v => TemplateService.Lawful.finished A.url _ _ c answer id v hkept answered

theorem ReadyVersion.request [A.service.Lawful A.url] {c : Call α} {answer : Except WorkerError α}
    {versionId : UUID}
    (h : A.ReadyVersion versionId x.world) (kept : c.deletesTemplate = false)
    (answered : A.service.answers c x.world.remote answer x'.world.remote) :
    A.ReadyVersion versionId x'.world := by
  obtain ⟨v, hv, hstatus⟩ := h
  obtain ⟨v', hv', hsame⟩ := TemplateService.Lawful.finished A.url _ _ c answer versionId v kept
    answered hv (by rw [hstatus]; rfl)
  exact ⟨v', hv', hsame.trans hstatus⟩

theorem viewVersion_some {id : UUID} {version : CoderTemplateVersion}
    (h : A.service.viewVersion w.remote id = some version) :
    version.id = id ∧ ∃ v, A.version w id = some v ∧ v.status = version.status := by
  obtain ⟨v, hv, rfl⟩ := Option.map_eq_some_iff.mp h
  exact ⟨rfl, v, hv, rfl⟩

theorem courses_templateVersion [A.service.Lawful A.url] {id : UUID}
    {ok : CoderTemplateVersion → Trial σ → Prop}
    {err : WorkerError → Trial σ → Prop}
    (polled : ∀ version x', x'.world.store = x.world.store → A.Untouched x.world x'.world →
      version.id = id → (∃ v, A.version x'.world id = some v ∧ v.status = version.status) →
      x.Shows I version → x'.looks = x.looks + 1 → ok version x') :
    A.Courses I (request (.templateVersion A.url id)) x ok err := by
  refine courses_request fun version x' hstore hanswered hlooks => ?_
  have hview := TemplateService.Lawful.readVersion _ _ _ _ hanswered
  obtain ⟨hid, hv⟩ := viewVersion_some (w := x'.world) hview
  obtain ⟨hshows, hnext⟩ := Trial.look_eq_some.mp hlooks
  exact polled version x' hstore (.request rfl hanswered) hid hv hshows hnext

theorem courses_beforeDeadline [A.service.Lawful A.url] {ok : Bool → Trial σ → Prop}
    {err : WorkerError → Trial σ → Prop}
    (answered : ∀ x', x'.world.store = x.world.store → A.Untouched x.world x'.world →
      x'.looks = x.looks → ok (decide (x.looks ≤ I.patience + 1)) x') :
    A.Courses I (request .beforeDeadline) x ok err := by
  refine courses_request fun before x' hstore hanswered hallowed => ?_
  simp only [Trial.answered, Option.ite_none_right_eq_some, Option.some.injEq] at hallowed
  obtain ⟨rfl, hlooks⟩ := hallowed
  exact answered x' hstore (.request rfl hanswered) hlooks.symm

theorem courses_heartbeat (h : A.Publishing claim x.world.store) {ok : Unit → Trial σ → Prop}
    {err : WorkerError → Trial σ → Prop}
    (beaten : ∀ s', s'.deployments = x.world.store.deployments → A.Publishing claim s' →
      ok () (x.withStore s')) : A.Courses I (publicationHeartbeat claim) x ok err := by
  obtain ⟨s', hrows, hpublishing, hcommits⟩ := h.heartbeat
  refine upholds_bind.mpr (courses_transact hcommits ?_)
  exact beaten s' hrows hpublishing

theorem courses_anyHeartbeat {ok : Unit → Trial σ → Prop}
    (beaten : ∀ x', x'.world.remote = x.world.remote → x'.looks = x.looks → ok () x') :
    A.Courses I (publicationHeartbeat claim) x ok anyError := by
  refine upholds_bind.mpr (courses_any ?_ fun _ _ => trivial)
  intro owned x' hremote hlooks
  cases owned with
  | false => exact trivial
  | true => exact beaten x' hremote hlooks

theorem Stage.of_deployments {s' : Store} (h : A.Stage claim remote s)
    (publishing : A.Publishing claim s') (deployments : s'.deployments = s.deployments) :
    A.Stage claim remote s' := by
  constructor
  · exact publishing
  · rw [deployments]
    exact h.row

/-- An import that succeeds in time is waited for. -/
theorem courses_wait [A.service.Lawful A.url] {id : UUID} (fuel : Nat)
    (hs : A.Stage claim remote x.world.store)
    (intime : I.InTime id) (patient : x.looks ≤ I.patience + 1)
    (enough : I.patience + 2 ≤ x.looks + fuel) :
    A.Courses I (waitTemplateVersion A.url id (publicationHeartbeat claim) fuel) x
      (fun version x' => A.Stage claim remote x'.world.store ∧ A.ReadyVersion version.id x'.world)
      noError := by
  induction fuel generalizing x with
  | zero => omega
  | succ fuel ih =>
      rw [waitTemplateVersion_succ]
      refine upholds_bind.mpr (courses_templateVersion ?_)
      rintro version x₁ hstore₁ - rfl ⟨v, hv, hstatus⟩ hseen hlooks₁
      have hs₁ : A.Stage claim remote x₁.world.store := hstore₁ ▸ hs
      obtain ⟨hsucceeds, hduration⟩ := intime
      refine upholds_ite (fun hready => ⟨hs₁, v, hv, hstatus.trans hready⟩) fun hunready => ?_
      have hrunning : x.looks < I.duration version.id := by
        by_contra hlate
        rw [Trial.Shows, if_neg hlate] at hseen
        exact hunready (hseen.trans hsucceeds)
      rw [Trial.Shows, if_pos hrunning] at hseen
      refine upholds_ite (fun hended => absurd (hseen.symm.trans hended) Bool.false_ne_true)
        fun _ => ?_
      refine upholds_bind.mpr (courses_beforeDeadline fun x₂ hstore₂ _ hlooks₂ => ?_)
      rw [decide_eq_true (by omega : x₁.looks ≤ I.patience + 1)]
      have hs₂ : A.Stage claim remote x₂.world.store := hstore₂ ▸ hs₁
      refine upholds_bind.mpr (courses_heartbeat hs₂.publishing fun s' hrows hpublishing => ?_)
      refine ih (hs₂.of_deployments hpublishing hrows) ?_ ?_
      · change x₂.looks ≤ _
        omega
      · change _ ≤ x₂.looks + fuel
        omega

/-- An import that does not succeed in time is not waited for until it succeeds. -/
theorem courses_wait_late [A.service.Lawful A.url] {id : UUID} (fuel : Nat) (late : ¬I.InTime id)
    (patient : x.looks ≤ I.patience + 1) (enough : I.patience + 2 ≤ x.looks + fuel) :
    A.Courses I (waitTemplateVersion A.url id (publicationHeartbeat claim) fuel) x
      (fun _ _ => False) anyError := by
  induction fuel generalizing x with
  | zero => omega
  | succ fuel ih =>
      rw [waitTemplateVersion_succ]
      refine upholds_bind.mpr (courses_templateVersion ?_)
      rintro version x₁ - - rfl - hseen hlooks₁
      unfold Trial.Shows at hseen
      refine upholds_ite (fun hready => ?_) fun _ => ?_
      · split at hseen
        · rw [hready] at hseen
          cases hseen
        · exact late ⟨hseen.symm.trans hready, by omega⟩
      · refine upholds_ite (fun _ => trivial) fun _ => ?_
        refine upholds_bind.mpr (courses_beforeDeadline fun x₂ _ _ hlooks₂ => ?_)
        by_cases hpatient : x₁.looks ≤ I.patience + 1
        · rw [decide_eq_true hpatient]
          refine upholds_bind.mpr (courses_anyHeartbeat fun x₃ _ hlooks₃ => ?_)
          exact ih (by omega) (by omega)
        · rw [decide_eq_false hpatient]
          exact trivial

theorem courses_wait_failed [A.service.Lawful A.url] {id : UUID} {v : RemoteVersion}
    (heartbeat : Worker Unit) (fuel : Nat)
    (row : A.version x.world id = some v) (ended : v.status.finished = true)
    (failed : v.status ≠ .succeeded) :
    A.Courses I (waitTemplateVersion A.url id heartbeat (fuel + 1)) x (fun _ _ => False)
      anyError := by
  rw [waitTemplateVersion_succ]
  refine upholds_bind.mpr (courses_templateVersion ?_)
  rintro version x' - huntouched rfl ⟨v₁, hv₁, hstatus₁⟩ - -
  obtain ⟨v₂, hv₂, hstatus₂⟩ := huntouched.finished _ v row ended
  have hsame : version.status = v.status := by
    cases hv₁.symm.trans hv₂
    exact hstatus₁.symm.trans hstatus₂
  rw [hsame, if_neg failed, if_pos ended]
  exact trivial

end PublicationTarget
end CoderManager
