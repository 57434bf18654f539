import CoderManager.Domains.TemplateServer
import CoderManager.Refinement.Publishing

/-!
# Remote template ownership across crashes

Wherever the attempts stopped, a template of the assignment that still exists is
recognised by what the deployment records. One step of a publication breaks
this: preparing for another commit or revision forgets the recorded version, and
a template created just before is recognised by nothing else. Other parties break
it too when they take over such a template, or a version of an attempt.
-/
namespace CoderManager
open Programs Tables

variable {σ : Type}

namespace PublicationTarget
variable {A : PublicationTarget σ} {sc : Scene σ} {α : Type}

section Attempts
variable {claim : ExecutionClaim} {snapshot : TemplateSourceSnapshot} {archive : TemplateArchive}

theorem attempts_finish [A.service.Lawful A.url] (success : Bool) (ho : A.Owned sc) :
    A.Attempts (transact (.finishDeployment claim A.assignmentId archive.commit
        snapshot.systemParameterRevision success)) sc
      (fun _ sc' => A.Owned sc' ∧ (A.MetForeign sc → A.MetForeign sc'))
      (fun e sc' => e ≠ ownedOutside ∧ A.Owned sc') := by
  refine attempts_operation ho fun w w' r hcalm hperformed _ => ?_
  have ho₁ := hcalm.owned ho
  have hcalm₁ := calm_quiet (o := .transaction (.finishDeployment claim A.assignmentId
    archive.commit snapshot.systemParameterRevision success)) rfl ho₁ hperformed
  have ho₂ := hcalm₁.owned ho₁
  refine ⟨ho₂, fun _ _ => ⟨ho₂, ?_⟩, fun e he => ⟨?_, ho₂⟩⟩
  · rintro ⟨n, hn, hforeign⟩
    exact ⟨n, hn, fun hown => hforeign ((hcalm.created n.id).mp ((hcalm₁.created n.id).mp hown))⟩
  · have havoids : Avoids r := .performed hperformed fun _ =>
      .bind (.finishDeployment w.store _ _ _ _ _) fun _ => .ok _
    exact fun heq => havoids (he.trans (congrArg Except.error heq))

/-- A publication, wherever it stops, keeps the templates of the assignment
recognisable. -/
theorem attempts_publish [A.service.Lawful A.url] (fuel : Nat) (named : snapshot.name = A.name)
    (ho : A.Owned sc)
    (hs : A.SameTarget sc snapshot archive) :
    A.Attempts (A.publish snapshot archive claim fuel) sc (fun _ sc' => A.Owned sc') A.Raises := by
  refine .bind (attempts_prepare ho hs) ?_ (fun _ _ => .of_other)
  rintro preparation sc₁ ⟨ho₁, hready⟩
  refine upholds_ite (fun _ => ho₁) fun hfresh => ?_
  obtain ⟨url, hr⟩ := hready (by simpa using hfresh)
  refine upholds_bind.mpr (upholds_tryCatch.mpr ?_)
  refine (attempts_publishTemplate fuel url named ho₁ hr).mono ?_ ?_
  · intro _ sc₂ ho₂
    refine .bind (attempts_finish true ho₂) ?_ (fun _ _ => .of_other)
    exact fun _ sc₃ h => h.1
  · intro e sc₂ hraised
    split
    · exact hraised
    · refine .bind (attempts_finish false hraised.1) ?_ (fun _ _ => .of_other)
      rintro - sc₃ ⟨ho₃, hmet⟩
      exact ⟨ho₃, fun he => hmet (hraised.2 he)⟩

def quietProtocol : Protocol Op WorkerError where
  answers := fun _ _ => True
  guard := fun _ o => quiet o = true

theorem quiet_of_isRoutine {c : Call α} (h : c.isRoutine = true ∨ c.isRemoval = true) :
    quiet (.call c) = true := by
  cases c <;> first | rfl | rcases h with ⟨⟨⟩⟩ | ⟨⟨⟩⟩

theorem permits_quiet (claim : ExecutionClaim) (lost : WorkerError) (h : WorkerHistory) :
    Permits quietProtocol h (heartbeatOwned claim lost) := by
  refine .always (fun _ _ _ _ hc => quiet_of_isRoutine hc) ?_
  intro h' _
  refine .bind (.perform rfl) fun owned _ _ => ?_
  cases owned with
  | false => exact .throw _
  | true => exact .pure ()

theorem attempts_of_keeps [A.service.Lawful A.url] {p : Worker α} {h : WorkerHistory}
    {P : Scene σ → Prop}
    (hp : Keeps quietProtocol p h) (hstable : A.Stable P) (ho : A.Owned sc) (hP : P sc) :
    A.Attempts p sc (fun _ sc' => A.Owned sc' ∧ P sc') (fun _ sc' => A.Owned sc') := by
  refine (Upholds.of_keeps hp (fun _ _ => trivial) (fun sc => A.Owned sc ∧ P sc) ⟨ho, hP⟩ ?_).mono
    (fun _ _ h => h) (fun _ _ h => h.1)
  rintro β o h' sc₁ r _ hquiet ⟨ho₁, hP₁⟩ ⟨w, w', hmoved, hperformed, -, rfl⟩
  have hcalm := Calm.of_moved ho₁ hmoved
  have hcalm' := calm_quiet hquiet (hcalm.owned ho₁) hperformed
  have ho₂ := hcalm'.owned (hcalm.owned ho₁)
  exact ⟨ho₂, ho₂, hstable _ _ hcalm' (hstable _ _ hcalm hP₁)⟩

theorem Owned.removalSnapshot (ho : A.Owned sc) {snapshot : TemplateRemovalSnapshot}
    (h : sc.world.store.removalSnapshot A.assignmentId = .ok snapshot) :
    snapshot.instanceUrl = A.url ∧
      ∀ id, snapshot.coderTemplateId = some id → A.Created sc.history id := by
  simp only [Store.removalSnapshot, bind_eq_ok, found_eq_ok] at h
  obtain ⟨a, ha, i, -, h⟩ := h
  obtain ⟨password, rfl⟩ : ∃ password, snapshot = {
      assignmentId := A.assignmentId, templateId := a.templateId, instanceId := a.instanceId
      instanceUrl := a.instanceId, password
      coderTemplateId := (sc.world.store.deployments.lookup A.assignmentId).bind
        fun d => d.coderTemplateId } := by
    split at h
    · exact ⟨_, (Except.ok.inj h).symm⟩
    · split at h
      · cases h
      · simp only [bind_eq_ok, pure_eq_ok] at h
        obtain ⟨_, -, _, -, password, -, rfl⟩ := h
        exact ⟨password, rfl⟩
  refine ⟨ho.place a ha, fun id hid => ?_⟩
  obtain ⟨d, hd, hrecorded⟩ := Option.bind_eq_some_iff.mp hid
  exact ho.templateId d id hd hrecorded

theorem attempts_removalSnapshot [A.service.Lawful A.url] (ho : A.Owned sc) :
    A.Attempts (query (.removalSnapshot A.assignmentId)) sc
      (fun snapshot sc' => A.Owned sc' ∧ snapshot.instanceUrl = A.url ∧
        ∀ id, snapshot.coderTemplateId = some id → A.Created sc'.history id)
      (fun _ sc' => A.Owned sc') := by
  refine attempts_operation ho fun w w' r hcalm hperformed _ => ?_
  have ho₁ := hcalm.owned ho
  have hcalm₁ := calm_quiet (o := .query (.removalSnapshot A.assignmentId)) rfl ho₁ hperformed
  have ho₂ := hcalm₁.owned ho₁
  refine ⟨ho₂, fun snapshot hsnapshot => ⟨ho₂, ?_⟩, fun _ _ => ho₂⟩
  obtain ⟨hurl, hid⟩ := ho₁.removalSnapshot (hperformed.read.2 snapshot hsnapshot)
  exact ⟨hurl, fun id h => (hcalm₁.created id).mpr (hid id h)⟩

theorem Owned.calm_deleted {r : Except WorkerError Unit} {w : Setting σ} {id : UUID} (ho : A.Owned sc)
    (own : A.Created sc.history id) (store : w.store = sc.world.store)
    (remote : A.service.Deletes sc.world.remote w.remote) :
    A.Calm sc (sc.after (.call (.deleteTemplate A.url id)) r w) where
  created := by
    intro id'
    refine created_cons.trans (or_iff_right ?_)
    rintro ⟨hnone, hsome⟩
    obtain ⟨t, ht⟩ := Option.isSome_iff_exists.mp hsome
    cases hnone.symm.trans (remote.templates id' t ht)
  made := by
    intro id'
    refine made_cons.trans (or_iff_right ?_)
    rintro ⟨hnone, hsome⟩
    have hbefore : (A.version sc.world id').isSome = true := remote.versions id' hsome
    rw [hnone] at hbefore
    cases hbefore
  touches := by
    intro h
    refine touchesOwn_cons.mpr ⟨fun id' hid => ?_, h⟩
    cases hid
    exact own
  issued := remote.issued
  ours := fun id' t _ ht => ⟨t, remote.templates id' t ht, .inr ⟨rfl, rfl⟩⟩
  theirs := fun id' t hid ht => ho.theirs id' t hid (remote.templates id' t ht)
  store := by
    change A.KeepsRecord sc.world.store w.store
    rw [store]
    exact .refl _

theorem attempts_deleteTemplate [A.service.Lawful A.url] {id : UUID} (ho : A.Owned sc)
    (own : A.Created sc.history id) :
    A.Attempts (request (.deleteTemplate A.url id)) sc (fun _ sc' => A.Owned sc')
      (fun _ sc' => A.Owned sc') := by
  refine attempts_operation ho fun w w' r hcalm hperformed _ => ?_
  have ho₁ := hcalm.owned ho
  obtain ⟨hanswered, hstore⟩ := hperformed.call_cases
  have hdeletes := TemplateService.Lawful.deleteTemplate _ _ _ _ hanswered
  have ho₂ : A.Owned ((sc.at_ w).after (.call (.deleteTemplate A.url id)) r w') :=
    (ho₁.calm_deleted own hstore hdeletes).owned ho₁
  exact ⟨ho₂, fun _ _ => ho₂, fun _ _ => ho₂⟩

/-- A removal deletes what an attempt created, and nothing else. -/
theorem attempts_remove [A.service.Lawful A.url] (fuel : Nat)
    (resource : claim.resourceId = some A.assignmentId)
    (ho : A.Owned sc) :
    A.Attempts (Tasks.deleteTemplate fuel claim) sc (fun _ sc' => A.Owned sc')
      (fun _ sc' => A.Owned sc') := by
  have hresource : claim.requiredResourceId = .ok A.assignmentId := by
    rw [ExecutionClaim.requiredResourceId, resource]
  have hlift : A.Attempts (liftExcept claim.requiredResourceId) sc
      (fun id sc' => id = A.assignmentId ∧ sc' = sc) (fun _ sc' => A.Owned sc') := by
    rw [hresource]
    exact ⟨rfl, rfl⟩
  have hlast : ∀ snapshot sc₁, A.Owned sc₁ → A.Attempts (do
      return if ← transact (.removeLocalAssignment claim snapshot) then TaskStatus.deleted
        else .noop) sc₁ (fun _ sc' => A.Owned sc') (fun _ sc' => A.Owned sc') := by
    intro snapshot sc₁ ho₁
    have hkeeps : Keeps quietProtocol (transact (.removeLocalAssignment claim snapshot)) [] :=
      .perform rfl
    refine .bind (attempts_of_keeps (P := fun _ => True) hkeeps (fun _ _ _ _ => trivial) ho₁ trivial)
      ?_ (fun _ _ h => h)
    exact fun _ sc₂ h => h.1
  refine .bind hlift ?_ (fun _ _ h => h)
  rintro _ _ ⟨rfl, rfl⟩
  refine .bind (attempts_removalSnapshot ho) ?_ (fun _ _ h => h)
  rintro snapshot sc₁ ⟨ho₁, hurl, hid⟩
  dsimp only
  split
  · rename_i id password hrecorded _
    rw [hurl]
    have hown : A.Stable fun sc => A.Created sc.history id :=
      fun _ _ hcalm h => (hcalm.created id).mpr h
    have hpermits := permits_quiet claim
      (.runtimeError "Template assignment deletion claim is no longer current") []
    refine .bind (attempts_of_keeps (Coder.deleteTemplateWorkspaces_keeps hpermits password id fuel)
      hown ho₁ (hid id hrecorded)) ?_ (fun _ _ h => h)
    rintro - sc₂ ⟨ho₂, hid₂⟩
    refine .bind (attempts_of_keeps hpermits.heartbeat_keeps hown ho₂ hid₂) ?_ (fun _ _ h => h)
    rintro - sc₃ ⟨ho₃, hid₃⟩
    refine .bind (attempts_of_keeps (hpermits.request_keeps _ rfl) hown ho₃ hid₃) ?_ (fun _ _ h => h)
    rintro - sc₄ ⟨ho₄, hid₄⟩
    refine .bind (attempts_deleteTemplate ho₄ hid₄) ?_ (fun _ _ h => h)
    exact fun _ sc₅ ho₅ => hlast snapshot sc₅ ho₅
  · exact hlast snapshot sc₁ ho₁

theorem Untried.owned (h : A.Untried sc) : A.Owned sc := by
  have hnone : ∀ id, ¬A.Created sc.history id := by
    rintro id ⟨m, hm, -⟩
    rw [h.history] at hm
    cases hm
  have hmade : ∀ id, ¬A.Made sc.history id := by
    rintro id ⟨m, hm, -⟩
    rw [h.history] at hm
    cases hm
  constructor
  · exact fun id hid => absurd hid (hnone id)
  · exact fun id hid => absurd hid (hmade id)
  · exact h.place
  · intro d id hd
    cases h.deployment.symm.trans hd
  · intro d id hd
    cases h.deployment.symm.trans hd
  · exact fun _ _ id _ hid => absurd hid (hnone id)
  · exact fun id _ hid => absurd hid (hnone id)
  · exact fun _ _ _ _ => hmade _
  · intro m older hs
    rw [h.history] at hs
    cases List.suffix_nil.mp hs

theorem Attempted.owned [A.service.Lawful A.url] (h : A.Attempted A.settled sc) : A.Owned sc := by
  induction h with
  | start untried => exact untried.owned
  | beside _ moved limited ih => exact (Calm.of_beside ih moved limited).owned ih
  | publish _ named limited reached ih =>
      exact ((attempts_publish _ named ih limited).sound ih reached).1
  | remove _ resource reached ih => exact ((attempts_remove _ resource ih).sound ih reached).1

end Attempts

/-- In every run of attempts in which other parties are considerate and no publication
changes its target while a template of the assignment is not recorded, the attempts touch
only templates that attempts created, and reject only templates that none created. -/
theorem remote_templates_are_recognised (A : PublicationTarget σ) [A.service.Lawful A.url]
    (sc : Scene σ) (h : A.Attempted A.settled sc) : A.Recognised A.settled sc := by
  refine ⟨h.owned.touches, fun sc' snapshot archive named limited claim fuel reached => ?_⟩
  have hpublish : A.Attempts (A.publish snapshot archive claim fuel) sc (fun _ sc' => A.Owned sc')
      A.Raises := attempts_publish fuel named h.owned limited
  exact ((hpublish.sound h.owned reached).2.2 ownedOutside rfl).2 rfl

/-- What a setting with the server answers to one operation, and what it leaves. -/
def serve (w : Setting CoderRemote) (choice : ServerChoice) : {β : Type} → Op β →
    Except WorkerError β × Setting CoderRemote
  | _, .query q => ((World.perform ⟨w.store⟩ choice.database (.query q)).1, w)
  | _, .transaction t =>
      let performed := World.perform ⟨w.store⟩ choice.database (.transaction t)
      (performed.1, { w with store := performed.2.store })
  | _, .call c =>
      let answered := w.remote.request choice c
      (answered.1, { w with remote := answered.2 })

theorem performs_serve {w w' : Setting CoderRemote} {choice : ServerChoice} {o : Op α}
    {r : Except WorkerError α} (h : serve w choice o = (r, w')) :
    CoderRemote.service.Performs w o r w' := by
  cases o with
  | query q =>
      cases h
      exact .query rfl
  | transaction t =>
      cases h
      exact .transaction rfl
  | call c =>
      cases h
      exact .call ⟨choice, rfl⟩

def replay : List ServerChoice → Worker α → Scene CoderRemote → Option (Worker α × Scene CoderRemote)
  | choice :: choices, .call o k, sc =>
      let (r, w) := serve sc.world choice o
      match r with
      | .error e =>
          if e = ownedOutside then none else replay choices (k (.error e)) (sc.after o (.error e) w)
      | .ok a => replay choices (k (.ok a)) (sc.after o (.ok a) w)
  | _, p, sc => some (p, sc)

theorem proceeds_replay {A : PublicationTarget CoderRemote} {L : Limits CoderRemote}
    {choices : List ServerChoice} {p rest : Worker α} {sc sc' : Scene CoderRemote}
    (server : A.service = CoderRemote.service) (h : replay choices p sc = some (rest, sc')) :
    Proceeds (A.semantics L) p sc rest sc' := by
  induction choices generalizing p sc with
  | nil =>
      cases p <;> cases h <;> exact .refl _ _
  | cons choice choices ih =>
      cases p with
      | call o k =>
          have hserved : ∀ {r w}, serve sc.world choice o = (r, w) → A.service.Performs sc.world o r w := by
            intro r w hr
            rw [server]
            exact performs_serve hr
          simp only [replay] at h
          split at h
          · rename_i e he
            split at h
            · cases h
            · rename_i hne
              refine .step ⟨sc.world, _, .inl rfl, hserved (Prod.ext he rfl), ?_, rfl⟩ (ih h)
              exact fun _ _ heq => hne (Except.error.inj heq)
          · rename_i a ha
            refine .step ⟨sc.world, _, .inl rfl, hserved (Prod.ext ha rfl), ?_, rfl⟩ (ih h)
            rintro _ _ ⟨⟩
      | _ =>
          cases h
          exact .refl _ _

/-- Template 3, published to instance 1 by assignment 4, whose job 5 has been
claimed for its first attempt. -/
def assigning : List Step :=
  provisioning ++ [
    requesting (.createTemplate "template" ⟨"Template", "git", "path", "main", []⟩),
    requesting (.putAssignment 1 3), delivering .templateAssignmentCreateStep01 5] ++
  answering 3 [.done]

def untried : Scene CoderRemote := ⟨⟨(run assigning).world.store, .empty⟩, []⟩

def published : PublicationTarget CoderRemote := ⟨4, 1, "template", CoderRemote.service⟩

instance : published.service.Lawful published.url := CoderRemote.lawful 1

def source : TemplateSourceSnapshot := ⟨3, "Template", "template", "git", "path", "main", 0⟩

def attemptClaim (number : Nat) : ExecutionClaim :=
  ⟨5, StepName.templateAssignmentCreateStep01.task, .templateAssignmentCreateStep01, number,
    some .templateAssignment, some 4⟩

def attempt (number : Nat) (commit : String) : Worker Bool :=
  published.publish source ⟨commit, ⟨commit, "path"⟩⟩ (attemptClaim number) 3

def importing (status : ImportStatus) : List ServerChoice :=
  [.reply .done, .reply .done, .reply (.identifier 7), .serve .pending, .reply .done, .serve .pending,
    .serve .pending, .reply .done, .serve status]

/-- The first attempt creates the template and stops before it is recorded. -/
def crash : Option (Worker Bool × Scene CoderRemote) :=
  replay (importing .succeeded ++ [.serve .pending]) (attempt 1 "first") untried

def crashed : Scene CoderRemote := (crash.map Prod.snd).getD untried

theorem attempted_untried (L : Limits CoderRemote) : published.Attempted L untried := by
  refine .start ⟨rfl, by decide +kernel, fun a ha => ?_⟩
  have hplace : (untried.world.store.assignments.lookup 4).map (fun a => a.instanceId) =
      some 1 := by decide +kernel
  rw [show untried.world.store.assignments.lookup 4 = some a from ha] at hplace
  exact Option.some.inj hplace

theorem attempted_crashed {L : Limits CoderRemote}
    (limited : L.starts untried source ⟨"first", ⟨"first", "path"⟩⟩) :
    published.Attempted L crashed := by
  have hsome : crash.isSome = true := by decide +kernel
  obtain ⟨⟨rest, sc'⟩, hcrash⟩ := Option.isSome_iff_exists.mp hsome
  have hcrashed : crashed = sc' := by rw [crashed, hcrash]; rfl
  rw [hcrashed]
  exact .publish (attempted_untried L) rfl limited (proceeds_replay rfl hcrash)

def reclaimedStore (s : Store) : Store :=
  let s := { s with now := s.now + 1000 }
  let s := (s.prepareExecutionRetry 5 500).2
  (s.claimExecution 5 StepName.templateAssignmentCreateStep01.task).2

def reclaimed (sc : Scene CoderRemote) : Scene CoderRemote :=
  sc.at_ { sc.world with store := reclaimedStore sc.world.store }

theorem attempted_reclaimed {L : Limits CoderRemote} {sc : Scene CoderRemote}
    (h : published.Attempted L sc)
    (store : published.KeepsRecord sc.world.store (reclaimedStore sc.world.store))
    (limited : L.moves sc (reclaimed sc).world) : published.Attempted L (reclaimed sc) := by
  refine .beside h ⟨fun _ h => h, fun id t ht hnone => ?_, store⟩ limited
  cases hnone.symm.trans ht

theorem keepsRecord_crashed :
    published.KeepsRecord crashed.world.store (reclaimedStore crashed.world.store) :=
  .of_lookup (by decide +kernel) (by decide +kernel)

/-- The crashed attempt, handed to the next worker, is one of the runs the theorem speaks of. -/
theorem crashed_publication_is_recognised :
    published.Recognised published.settled (reclaimed crashed) := by
  have hcrashed : published.Attempted published.settled crashed := by
    refine attempted_crashed ?_
    rintro id t ⟨m, hm, -⟩
    cases hm
  refine remote_templates_are_recognised published _
    (attempted_reclaimed hcrashed keepsRecord_crashed ⟨?_, hcrashed.owned.theirs⟩)
  intro id t t₀ _ _ ht₀ ht
  cases ht₀.symm.trans ht
  exact ⟨rfl, rfl⟩

/-- The second attempt publishes the next commit and meets the template. -/
def retried : Option (Worker Bool × Scene CoderRemote) :=
  replay [.reply .done, .reply .done, .reply (.identifier 7), .serve .pending, .reply .done]
    (attempt 2 "second") (reclaimed crashed)

def raised : Worker α → Option WorkerError
  | .raise e => some e
  | _ => none

theorem raised_eq_some {p : Worker α} {e : WorkerError} (h : raised p = some e) : p = .raise e := by
  cases p <;> cases h
  rfl

/-- A publication of the next commit rejects the template its predecessor made, although
nobody else did anything. -/
theorem next_commit_rejects_own_template :
    ¬∀ (A : PublicationTarget CoderRemote), A.service.Lawful A.url → ∀ sc,
      A.Attempted .none sc → A.Recognised .none sc := by
  intro h
  have hreclaimed := attempted_reclaimed (attempted_crashed (L := .none) trivial)
    keepsRecord_crashed trivial
  have hrejected : retried.map (fun x => (raised x.1, x.2.history.met.map fun t => t.id,
      decide (published.Created x.2.history 2))) = some (some ownedOutside, some 2, true) := by
    decide +kernel
  obtain ⟨⟨rest, sc'⟩, hretried, hend⟩ := Option.map_eq_some_iff.mp hrejected
  simp only [Prod.mk.injEq, decide_eq_true_eq] at hend
  obtain ⟨hraised, hmet, hcreated⟩ := hend
  cases raised_eq_some hraised
  obtain ⟨named, hnamed, hforeign⟩ := (h published inferInstance _ hreclaimed).2 sc' source _ rfl
    trivial _ _ (proceeds_replay rfl hretried)
  rw [hnamed] at hmet
  cases named with
  | mk id active =>
      cases hmet
      exact hforeign hcreated

end PublicationTarget
end CoderManager
