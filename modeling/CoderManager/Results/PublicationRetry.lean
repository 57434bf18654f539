import CoderManager.Refinement.Retries
import CoderManager.Results.TemplateOwnership

/-!
# Convergence of a publication retry

One attempt none of whose requests fails, after any history of attempts. It
converges exactly when it recognises the template of the name and the version it
finds, if it finds one, has been imported or is in time. A version whose import
failed is found again by every retry.
-/
namespace CoderManager
open Programs Tables

variable {σ : Type}

namespace PublicationTarget
variable {A : PublicationTarget σ} {I : ImportCourse} {claim : ExecutionClaim} {x : Trial σ}
  {w : Setting σ} {sc : Scene σ} {snapshot : TemplateSourceSnapshot} {archive : TemplateArchive}
  {preparation : TemplateDeploymentPreparation} {d : TemplateDeployment} {s : Store} {fuel : Nat}

theorem courses_finish {ok : Unit → Trial σ → Prop} {err : WorkerError → Trial σ → Prop}
    (commit : String) (revision : Nat) (hp : A.Publishing claim x.world.store) (hl : A.Live x.world)
    (finished : ∀ x', A.Converged x'.world → ok () x') :
    A.Courses I (transact (.finishDeployment claim A.assignmentId commit revision true)) x ok err := by
  obtain ⟨d, id, t, v, hd, hid, ht, hv, hready⟩ := hl
  refine courses_transact (hp.finish_commits hd commit revision true) ?_
  refine finished _ ⟨d.finished commit revision true, id, t, v, ?_, rfl, hid, ht, hv, hready⟩
  change (Table.modify _ _ _).lookup _ = _
  rw [Table.lookup_modify_self]
  exact congrArg _ hd

/-- A publication whose remote half goes through converges. -/
theorem courses_publish_converges
    (commits : x.world.store.prepareDeployment claim A.assignmentId snapshot.id archive.commit
      snapshot.systemParameterRevision = .ok (preparation, s))
    (fresh : preparation.alreadyApplied = false)
    (remote : A.Courses I (publishTemplate claim A.assignmentId snapshot archive preparation
      (publicationHeartbeat claim) fuel) (x.withStore s)
      (fun _ x' => A.Publishing claim x'.world.store ∧ A.Live x'.world) noError) :
    A.Courses I (A.publish snapshot archive claim fuel) x (fun _ x' => A.Converged x'.world)
      noError := by
  refine upholds_bind.mpr (courses_transact (fun _ => by rw [Store.transact, commits]) ?_)
  rw [fresh, if_neg Bool.false_ne_true]
  refine upholds_bind.mpr (upholds_tryCatch.mpr (remote.mono ?_ fun _ _ h => h.elim))
  rintro - x' ⟨hpublishing, hlive⟩
  exact upholds_bind.mpr (courses_finish _ _ hpublishing hlive fun _ h => h)

theorem courses_publish_fails
    (commits : x.world.store.prepareDeployment claim A.assignmentId snapshot.id archive.commit
      snapshot.systemParameterRevision = .ok (preparation, s))
    (fresh : preparation.alreadyApplied = false)
    (remote : A.Courses I (publishTemplate claim A.assignmentId snapshot archive preparation
      (publicationHeartbeat claim) fuel) (x.withStore s) (fun _ _ => False) anyError) :
    A.Courses I (A.publish snapshot archive claim fuel) x (fun _ _ => False) anyError := by
  refine upholds_bind.mpr (courses_transact (fun _ => by rw [Store.transact, commits]) ?_)
  rw [fresh, if_neg Bool.false_ne_true]
  refine upholds_bind.mpr (upholds_tryCatch.mpr (remote.mono (fun _ _ h => h.elim) ?_))
  intro e x' _
  cases e with
  | templateTargetClaimLostError => exact trivial
  | _ => exact upholds_bind.mpr (courses_any (fun _ _ _ _ => trivial) fun _ _ => trivial)

/-- The assignment is one to the instance its deployment is on. -/
def Placed (A : PublicationTarget σ) (s : Store) : Prop :=
  ∀ a, s.assignments.lookup A.assignmentId = some a → a.instanceId = A.url

namespace Placed

theorem beside (h : A.Placed sc.world.store) (moved : A.Beside sc w) : A.Placed w.store := by
  intro a ha
  obtain ⟨a₀, ha₀, hsame, -⟩ := moved.store.kept a ha
  rw [hsame]
  exact h a₀ ha₀

theorem performed {α : Type} {o : Op α} {w' : Setting σ} {r : Except WorkerError α}
    (h : A.Placed w.store) (performs : A.service.Performs w o r w') : A.Placed w'.store := by
  cases performs with
  | query => exact h
  | call => exact h
  | transaction performed =>
      rcases World.perform_transaction performed with ⟨e, -, rfl⟩ | ⟨token, a, s, -, hs, rfl⟩
      · exact h
      · intro row hrow
        obtain ⟨row₀, hrow₀, hsame⟩ := (Narrowed.committed (Store.committed hs)).assignments _ row hrow
        rw [(Prod.mk.inj hsame).1]
        exact h row₀ hrow₀

theorem proceeds {α : Type} {L : Limits σ} {p rest : Worker α} {sc' : Scene σ}
    (h : A.Placed sc.world.store) (reached : Proceeds (A.semantics L) p sc rest sc') :
    A.Placed sc'.world.store := by
  induction reached with
  | refl => exact h
  | step answered onward ih =>
      obtain ⟨w, w', hmoved, hperforms, -, rfl⟩ := answered
      refine ih (Placed.performed (w := w) ?_ hperforms)
      rcases hmoved with rfl | ⟨hmoved, -⟩
      · exact h
      · exact h.beside hmoved

end Placed

theorem Attempted.placed {L : Limits σ} (h : A.Attempted L sc) : A.Placed sc.world.store := by
  induction h with
  | start untried => exact untried.place
  | beside _ moved _ ih => exact ih.beside moved
  | publish _ _ _ reached ih => exact ih.proceeds reached
  | remove _ _ reached ih => exact ih.proceeds reached

/-- While only attempts hold the name, to be recognisable is to be acknowledged. -/
theorem Unclaimed.recognisable_iff [A.service.Lawful A.url] (h : A.Unclaimed sc) :
    A.Recognisable sc d ↔ A.Acknowledged sc.world d := by
  constructor
  · intro hr n hn
    obtain ⟨id, hid, hview⟩ := Option.bind_eq_some_iff.mp hn
    obtain ⟨t, ht, rfl⟩ := Option.map_eq_some_iff.mp hview
    obtain ⟨t', ht', hname⟩ := TemplateService.Lawful.templateNamed A.url _ _ _ hid
    cases ht.symm.trans ht'
    rcases hr id t hid ht (h id t ht hname) with hrecorded | ⟨hnone, hversion⟩
    · exact .inl hrecorded
    · exact .inr ⟨hnone, by rw [hversion]; rfl, hversion.symm⟩
  · intro ha id t hid ht _
    have hnamed : A.namedTemplate sc.world = some (t.view id) := by
      rw [namedTemplate, hid]
      exact congrArg (Option.map (RemoteTemplate.view id)) ht
    rcases ha _ hnamed with hrecorded | ⟨hnone, -, hversion⟩
    · exact .inl hrecorded
    · exact .inr ⟨hnone, hversion.symm⟩

theorem prepared_aimed {target : OwnedTemplateTarget} (placed : A.Placed w.store)
    (aimed : s = { w.store with
      deployments := w.store.deployments.insert A.assignmentId
        (d.aimed archive.commit snapshot.systemParameterRevision) })
    (locked : w.store.lockOwnedTemplateTarget claim A.assignmentId (some snapshot.id) = .ok target)
    (url : preparation.instanceUrl = target.instanceId)
    (templateId : preparation.persistedTemplateId = d.coderTemplateId)
    (versionId : preparation.persistedVersionId =
      d.keptVersion archive.commit snapshot.systemParameterRevision) :
    A.Prepared claim preparation (d.aimed archive.commit snapshot.systemParameterRevision)
      ⟨{ w with store := s }, 0⟩ := by
  subst aimed
  constructor
  · exact (Publishing.of_lock locked).of_eq rfl rfl rfl rfl
  · exact Table.lookup_insert_self _ _ _
  · obtain ⟨job, a, i, t, -, -, ha, -, -, -, -, rfl⟩ := Store.lockOwnedTemplateTarget_ok locked
    rw [url]
    exact placed a ha
  · exact templateId
  · exact versionId
  · rfl

theorem courses_publish [A.service.Lawful A.url] (placed : A.Placed sc.world.store)
    (unclaimed : A.Unclaimed sc)
    (named : snapshot.name = A.name) (enough : I.patience < fuel) :
    (A.Recoverable claim snapshot archive I sc → A.Courses I (A.publish snapshot archive claim fuel)
      ⟨sc.world, 0⟩ (fun _ x' => A.Converged x'.world) noError) ∧
    (¬A.Recoverable claim snapshot archive I sc → A.Courses I (A.publish snapshot archive claim fuel)
      ⟨sc.world, 0⟩ (fun _ x' => ¬A.Converged x'.world) anyError) := by
  cases hprepare : sc.world.store.prepareDeployment claim A.assignmentId snapshot.id archive.commit
      snapshot.systemParameterRevision with
  | error e =>
      refine ⟨?_, fun _ => ?_⟩
      · rintro ⟨⟨prepared, hprepared⟩, -⟩
        cases hprepare.symm.trans hprepared
      · refine upholds_bind.mpr (courses_refused (e := e) (fun _ => ?_) trivial)
        rw [Store.transact, hprepare]
  | ok prepared =>
      obtain ⟨preparation, s⟩ := prepared
      obtain ⟨target, d, htarget, hd, hcases⟩ := Store.prepareDeployment_ok hprepare
      have hrecord : A.record sc.world = d := hd.symm
      have hprepared : ∃ prepared, sc.world.store.prepareDeployment claim A.assignmentId snapshot.id
          archive.commit snapshot.systemParameterRevision = .ok prepared := ⟨_, hprepare⟩
      simp only [Recoverable, hrecord, hprepared, true_and]
      rcases hcases with ⟨happlied, halready, rfl⟩ | ⟨hfresh, halready, hurl, htid, hvid, haimed⟩
      · rw [if_pos happlied]
        have hskipped : ∀ (P : Setting σ → Prop) err, P sc.world →
            A.Courses I (A.publish snapshot archive claim fuel) ⟨sc.world, 0⟩
              (fun _ x' => P x'.world) err := by
          intro P err hP
          refine upholds_bind.mpr (courses_transact (fun _ => by rw [Store.transact, hprepare]) ?_)
          rw [halready, if_pos rfl]
          exact hP
        exact ⟨hskipped A.Converged noError, hskipped (fun w => ¬A.Converged w) anyError⟩
      · rw [if_neg (by simp [hfresh]), unclaimed.recognisable_iff]
        have hp := prepared_aimed placed haimed htarget hurl htid hvid
        refine ⟨?_, fun hnot => ?_⟩
        · rintro ⟨hacknowledged, husable⟩
          exact courses_publish_converges hprepare halready
            (hp.converges named hacknowledged husable enough)
        · refine (courses_publish_fails hprepare halready ?_).mono
            (fun _ _ h => h.elim) fun _ _ h => h
          by_cases hacknowledged : A.Acknowledged sc.world
              (d.aimed archive.commit snapshot.systemParameterRevision)
          · obtain ⟨id, hfound, hunusable⟩ : ∃ id, A.foundVersion sc.world
                (d.aimed archive.commit snapshot.systemParameterRevision) archive.commit
                snapshot.systemParameterRevision = some id ∧ ¬A.Usable sc.world I id := by
              by_contra hall
              refine hnot ⟨hacknowledged, fun id hfound => ?_⟩
              by_contra hunusable
              exact hall ⟨id, hfound, hunusable⟩
            exact hp.fails named hacknowledged hfound hunusable enough
          · exact hp.rejects named hacknowledged fuel

/-- After any history of attempts, and while no template of others has the name, an
attempt none of whose requests fails ends, and it has converged exactly when the
state it started from lets it. -/
theorem retries_converge_iff (A : PublicationTarget σ) [A.service.Lawful A.url] (sc : Scene σ)
    (h : A.Attempted .none sc) (unclaimed : A.Unclaimed sc) (snapshot : TemplateSourceSnapshot)
    (named : snapshot.name = A.name) (archive : TemplateArchive) (claim : ExecutionClaim)
    (I : ImportCourse) (fuel : Nat) (enough : I.patience < fuel) :
    A.Courses I (A.publish snapshot archive claim fuel) ⟨sc.world, 0⟩ (fun _ _ => True) anyError ∧
    ∀ r x', Finishes (A.service.favourable I) (A.publish snapshot archive claim fuel) ⟨sc.world, 0⟩
        r x' →
      (((∃ applied, r = .ok applied) ∧ A.Converged x'.world) ↔
        A.Recoverable claim snapshot archive I sc) := by
  obtain ⟨hconverges, hfails⟩ : (A.Recoverable claim snapshot archive I sc → _) ∧ _ :=
    courses_publish h.placed unclaimed named enough
  by_cases hrecoverable : A.Recoverable claim snapshot archive I sc
  · have hcourses := hconverges hrecoverable
    refine ⟨hcourses.mono (fun _ _ _ => trivial) (fun _ _ _ => trivial), fun r x' hfinished => ?_⟩
    obtain ⟨hok, herr⟩ := hcourses.finishes hfinished
    refine iff_of_true ?_ hrecoverable
    cases r with
    | ok applied => exact ⟨⟨applied, rfl⟩, hok applied rfl⟩
    | error e => exact (herr e rfl).elim
  · have hcourses := hfails hrecoverable
    refine ⟨hcourses.mono (fun _ _ _ => trivial) (fun _ _ _ => trivial), fun r x' hfinished => ?_⟩
    refine iff_of_false ?_ hrecoverable
    rintro ⟨⟨applied, rfl⟩, hconverged⟩
    exact (hcourses.finishes hfinished).1 applied rfl hconverged

def failsDatabase {α : Type} : Except WorkerError α → Bool
  | .error e => e == .databaseError
  | .ok _ => false

/-- An attempt alone on the server, to its end, if the choices allow it. -/
def rehearse (I : ImportCourse) {α : Type} : List ServerChoice → Worker α → Trial CoderRemote →
    Option (Except WorkerError α × Trial CoderRemote)
  | _, .ret a, x => some (.ok a, x)
  | _, .raise e, x => some (.error e, x)
  | choice :: choices, .call o k, x =>
      let (r, w) := serve x.world choice o
      if failsDatabase r then none
      else (x.answered I o r).bind fun looks => rehearse I choices (k r) ⟨w, looks⟩
  | _, _, _ => none

theorem finishes_rehearse {α : Type} {choices : List ServerChoice} {p : Worker α}
    {x x' : Trial CoderRemote} {r : Except WorkerError α} (h : rehearse I choices p x = some (r, x')) :
    Finishes (CoderRemote.service.favourable I) p x r x' := by
  induction choices generalizing p x with
  | nil => cases p <;> cases h <;> exact .refl _ _
  | cons choice choices ih =>
      cases p with
      | call o k =>
          simp only [rehearse] at h
          split at h
          · cases h
          · rename_i hworking
            obtain ⟨looks, hlooks, hrest⟩ := Option.bind_eq_some_iff.mp h
            refine .step ⟨performs_serve rfl, ?_, hlooks⟩ (ih hrest)
            intro heq
            rw [heq] at hworking
            exact hworking rfl
      | halt => cases h
      | _ =>
          cases h
          exact .refl _ _

/-- The first attempt stops while its import still runs. -/
def interrupt : Option (Worker Bool × Scene CoderRemote) :=
  replay (importing .pending) (attempt 1 "first") untried

def interrupted : Scene CoderRemote := (interrupt.map Prod.snd).getD untried

/-- The first attempt finds that its import has failed. -/
def failing : Option (Worker Bool × Scene CoderRemote) :=
  replay (importing .failed ++ [.reply .done]) (attempt 1 "first") untried

def failed : Scene CoderRemote := (failing.map Prod.snd).getD untried

def course : ImportCourse := ⟨fun _ => 2, fun _ => .succeeded, 1⟩

def secondAttempt : Worker Bool :=
  published.publish source ⟨"first", ⟨"first", "path"⟩⟩ (attemptClaim 2) 2

def resume : Option (Except WorkerError Bool × Trial CoderRemote) :=
  rehearse course [.reply .done, .reply .done, .reply (.identifier 7), .serve .pending, .reply .done,
    .serve .pending, .serve .running, .reply (.flag true), .reply .done, .serve .succeeded,
    .serve .pending, .reply .done, .reply .done] secondAttempt ⟨(reclaimed interrupted).world, 0⟩

/-- The second attempt finds the version of the first again, which has failed. -/
def repeated : Option (Except WorkerError Bool × Trial CoderRemote) :=
  rehearse ⟨fun _ => 0, fun _ => .failed, 1⟩ [.reply .done, .reply .done, .reply (.identifier 7),
    .serve .pending, .reply .done, .serve .pending, .serve .pending, .reply .done] secondAttempt
    ⟨(reclaimed failed).world, 0⟩

theorem attempted_resumed {sc : Scene CoderRemote} {choices : List ServerChoice}
    {rest : Worker Bool} (h : replay choices (attempt 1 "first") untried = some (rest, sc))
    (store : published.KeepsRecord sc.world.store (reclaimedStore sc.world.store)) :
    published.Attempted .none (reclaimed sc) :=
  attempted_reclaimed (.publish (attempted_untried .none) rfl trivial (proceeds_replay rfl h)) store
    trivial

theorem isSome_toOption {ε α : Type} {x : Except ε α} :
    x.toOption.isSome = true ↔ ∃ a, x = .ok a := by
  cases x <;> simp [Except.toOption]

theorem unclaimed_of_empty {sc : Scene CoderRemote} (h : sc.world.remote.templates.rows = []) :
    published.Unclaimed sc := by
  intro id t ht
  have hmem := Table.mem_rows.mpr ht
  rw [h] at hmem
  cases hmem

theorem attempted_interrupted : published.Attempted .none (reclaimed interrupted) := by
  have hsome : interrupt.isSome = true := by decide +kernel
  obtain ⟨⟨rest, sc⟩, hinterrupt⟩ := Option.isSome_iff_exists.mp hsome
  have hsc : interrupted = sc := by rw [interrupted, hinterrupt]; rfl
  have hkept : published.KeepsRecord interrupted.world.store (reclaimedStore interrupted.world.store) :=
    .of_lookup (by decide +kernel) (by decide +kernel)
  rw [hsc] at hkept ⊢
  exact attempted_resumed hinterrupt hkept

theorem attempted_failed : published.Attempted .none (reclaimed failed) := by
  have hsome : failing.isSome = true := by decide +kernel
  obtain ⟨⟨rest, sc⟩, hfailing⟩ := Option.isSome_iff_exists.mp hsome
  have hsc : failed = sc := by rw [failed, hfailing]; rfl
  have hkept : published.KeepsRecord failed.world.store (reclaimedStore failed.world.store) :=
    .of_lookup (by decide +kernel) (by decide +kernel)
  rw [hsc] at hkept ⊢
  exact attempted_resumed hfailing hkept

/-- The version of the first attempt is found while its import still runs, and it
succeeds in time. -/
theorem recoverable_interrupted :
    published.Recoverable (attemptClaim 2) source ⟨"first", ⟨"first", "path"⟩⟩ course
      (reclaimed interrupted) := by
  have hprepared : ((reclaimed interrupted).world.store.prepareDeployment (attemptClaim 2) 4 3 "first"
      0).toOption.isSome = true := by decide +kernel
  have hfresh : Store.deploymentApplied (published.record (reclaimed interrupted).world) "first" 0 =
      false := by decide +kernel
  have hunnamed : published.service.templateNamed (reclaimed interrupted).world.remote "template" =
      none := by decide +kernel
  have hfound : published.foundVersion (reclaimed interrupted).world
      ((published.record (reclaimed interrupted).world).aimed "first" 0) "first" 0 = some 1 := by
    decide +kernel
  have hversion : (published.version (reclaimed interrupted).world 1).map (fun v => v.status) =
      some .pending := by decide +kernel
  refine ⟨isSome_toOption.mp hprepared, ?_⟩
  refine (if_neg (Bool.not_eq_true _ ▸ hfresh)).mpr ⟨?_, ?_⟩
  · intro id t hid
    cases hunnamed.symm.trans hid
  · intro id hid
    cases hfound.symm.trans hid
    obtain ⟨v, hv, hpending⟩ := Option.map_eq_some_iff.mp hversion
    exact ⟨v, hv, .inr ⟨by rw [hpending]; rfl, rfl, by decide⟩⟩

/-- A retry of an attempt that stopped while its import ran converges. -/
theorem interrupted_import_converges :
    ∃ x', Finishes (CoderRemote.service.favourable course) secondAttempt
      ⟨(reclaimed interrupted).world, 0⟩ (.ok true) x' ∧ published.Converged x'.world := by
  have hresumed : resume.map (fun x => x.1.toOption) = some (some true) := by decide +kernel
  obtain ⟨⟨r, x'⟩, hresume, hok⟩ := Option.map_eq_some_iff.mp hresumed
  have hr : r = .ok true := by
    cases r with
    | ok applied => exact congrArg Except.ok (Option.some.inj hok)
    | error e => cases hok
  subst hr
  have hfinished := finishes_rehearse hresume
  have hconverges := retries_converge_iff published _ attempted_interrupted
    (unclaimed_of_empty (by decide +kernel)) source rfl ⟨"first", ⟨"first", "path"⟩⟩ (attemptClaim 2)
    course 2 (by decide)
  exact ⟨x', hfinished, ((hconverges.2 _ x' hfinished).mpr recoverable_interrupted).2⟩

/-- A second attempt at the same target finds the version again whose import failed. -/
theorem failed_import_is_not_retried :
    ¬∀ (A : PublicationTarget CoderRemote), A.service.Lawful A.url → ∀ sc, A.Attempted .none sc →
      A.Unclaimed sc → ∀ snapshot : TemplateSourceSnapshot, snapshot.name = A.name →
      ∀ archive claim, (∃ prepared, sc.world.store.prepareDeployment claim A.assignmentId snapshot.id
        archive.commit snapshot.systemParameterRevision = .ok prepared) →
      ∀ (I : ImportCourse) fuel, I.patience < fuel → ∀ r x', Finishes (A.service.favourable I)
        (A.publish snapshot archive claim fuel) ⟨sc.world, 0⟩ r x' →
        (∃ applied, r = .ok applied) ∧ A.Converged x'.world := by
  intro h
  have hraised : repeated.map (fun x => x.1.toOption) = some none := by decide +kernel
  obtain ⟨⟨r, x'⟩, hrepeated, hnone⟩ := Option.map_eq_some_iff.mp hraised
  have hprepared : ((reclaimed failed).world.store.prepareDeployment (attemptClaim 2) 4 3 "first"
      0).toOption.isSome = true := by decide +kernel
  obtain ⟨⟨applied, rfl⟩, -⟩ := h published inferInstance _ attempted_failed
    (unclaimed_of_empty (by decide +kernel)) source rfl ⟨"first", ⟨"first", "path"⟩⟩ (attemptClaim 2)
    (isSome_toOption.mp hprepared) _ 2 (by decide) r x' (finishes_rehearse hrepeated)
  cases hnone

end PublicationTarget
end CoderManager
