import CoderManager.Refinement.Ownership

/-!
# Recognising the template of an assignment

The first steps of a publication, wherever they stop: it is prepared, the template
is recognised and recorded. What is rejected is not one of the assignment.
-/
namespace CoderManager
open Programs Tables

variable {σ : Type}

namespace PublicationTarget
variable {A : PublicationTarget σ} {sc : Scene σ} {α : Type}

/-- What an attempt keeps true on its way. -/
abbrev Attempts (A : PublicationTarget σ) (p : Worker α) (sc : Scene σ) (ok : α → Scene σ → Prop)
    (err : WorkerError → Scene σ → Prop) : Prop :=
  Upholds (A.semantics A.settled) A.Owned True p sc ok err

def MetForeign (A : PublicationTarget σ) (sc : Scene σ) : Prop :=
  ∃ named, sc.history.met = some named ∧ ¬A.Created sc.history named.id

def Raises (A : PublicationTarget σ) (e : WorkerError) (sc : Scene σ) : Prop :=
  A.Owned sc ∧ (e = ownedOutside → A.MetForeign sc)

/-- A condition that other parties and quiet operations leave true. -/
def Stable (A : PublicationTarget σ) (P : Scene σ → Prop) : Prop :=
  ∀ sc sc', A.Calm sc sc' → P sc → P sc'

theorem attempts_operation {o : Op α} {ok : α → Scene σ → Prop} {err : WorkerError → Scene σ → Prop}
    (ho : A.Owned sc) (step : ∀ w w' r, A.Calm sc (sc.at_ w) → A.service.Performs w o r w' →
      (∀ c, o = .call c → r ≠ .error ownedOutside) →
      A.Owned ((sc.at_ w).after o r w') ∧
        (∀ a, r = .ok a → ok a ((sc.at_ w).after o r w')) ∧
        (∀ e, r = .error e → err e ((sc.at_ w).after o r w'))) :
    A.Attempts (.perform o) sc ok err := by
  refine upholds_perform.mpr ⟨?_, ?_⟩
  · rintro a _ ⟨w, w', hmoved, hperformed, hhonest, rfl⟩
    have hs := step w w' _ (.of_moved ho hmoved) hperformed hhonest
    exact ⟨hs.1, hs.2.1 a rfl⟩
  · rintro e _ ⟨w, w', hmoved, hperformed, hhonest, rfl⟩
    have hs := step w w' _ (.of_moved ho hmoved) hperformed hhonest
    exact ⟨hs.1, hs.2.2 e rfl⟩

section Quiet
variable {o : Op α} {P : Scene σ → Prop}

theorem Raises.of_ne {e : WorkerError} (ho : A.Owned sc) (h : e ≠ ownedOutside) : A.Raises e sc :=
  ⟨ho, fun he => absurd he h⟩

theorem attempts_quiet [A.service.Lawful A.url] (hq : quiet o = true)
    (avoids : ∀ {w w' : Setting σ} {r : Except WorkerError α}, A.service.Performs w o r w' →
      (∀ c, o = .call c → r ≠ .error ownedOutside) → Avoids r)
    (hstable : A.Stable P) (ho : A.Owned sc) (hp : P sc) :
    A.Attempts (.perform o) sc (fun _ sc' => A.Owned sc' ∧ P sc')
      (fun e sc' => e ≠ ownedOutside ∧ A.Owned sc' ∧ P sc') := by
  refine attempts_operation ho fun w w' r hcalm hperformed hhonest => ?_
  have ho₁ := hcalm.owned ho
  have hcalm₁ := calm_quiet hq ho₁ hperformed
  have ho₂ := hcalm₁.owned ho₁
  have hp₂ := hstable _ _ hcalm₁ (hstable _ _ hcalm hp)
  refine ⟨ho₂, fun _ _ => ⟨ho₂, hp₂⟩, ?_⟩
  rintro e rfl
  have havoids := avoids hperformed hhonest
  exact ⟨fun he => havoids (congrArg Except.error he), ho₂, hp₂⟩

theorem attempts_request [A.service.Lawful A.url] {c : Call α} (hq : c.keepsTemplates = true)
    (hstable : A.Stable P)
    (ho : A.Owned sc) (hp : P sc) :
    A.Attempts (request c) sc (fun _ sc' => A.Owned sc' ∧ P sc')
      (fun e sc' => e ≠ ownedOutside ∧ A.Owned sc' ∧ P sc') :=
  attempts_quiet (o := .call c) hq (fun _ h => h c rfl) hstable ho hp

theorem attempts_transact [A.service.Lawful A.url] {t : Transaction α}
    (hq : quiet (.transaction t) = true)
    (avoids : ∀ (s : Store) token, Avoids (s.transact token t)) (hstable : A.Stable P)
    (ho : A.Owned sc) (hp : P sc) :
    A.Attempts (transact t) sc (fun _ sc' => A.Owned sc' ∧ P sc')
      (fun e sc' => e ≠ ownedOutside ∧ A.Owned sc' ∧ P sc') :=
  attempts_quiet (o := .transaction t) hq
    (fun performed _ => .performed performed (avoids _)) hstable ho hp

theorem attempts_heartbeat [A.service.Lawful A.url] (claim : ExecutionClaim) (hstable : A.Stable P)
    (ho : A.Owned sc)
    (hp : P sc) :
    A.Attempts (publicationHeartbeat claim) sc (fun _ sc' => A.Owned sc' ∧ P sc')
      (fun e sc' => e ≠ ownedOutside ∧ A.Owned sc' ∧ P sc') := by
  refine .bind (attempts_transact rfl (fun _ _ => .ok _) hstable ho hp) ?_ (fun _ _ h => h)
  intro owned sc' h
  cases owned with
  | false => exact ⟨by decide, h⟩
  | true => exact h

end Quiet

theorem attempts_write {t : Transaction α} {ok : α → Scene σ → Prop}
    (avoids : ∀ (s : Store) token, Avoids (s.transact token t))
    (touches : ∀ {w w' : Setting σ} {r} id, (Moment.mk w ⟨.transaction t, r⟩ w').touched = some id →
      A.Created sc.history id) (ho : A.Owned sc)
    (commit : ∀ w token a s, A.Calm sc (sc.at_ w) → A.Owned (sc.at_ w) →
      w.store.transact token t = .ok (a, s) →
      A.Owned ((sc.at_ w).after (.transaction t) (.ok a) { w with store := s }) ∧
        ok a ((sc.at_ w).after (.transaction t) (.ok a) { w with store := s })) :
    A.Attempts (transact t) sc ok (fun e sc' => e ≠ ownedOutside ∧ A.Owned sc') := by
  refine attempts_operation ho fun w w' r hcalm hperformed _ => ?_
  have ho₁ := hcalm.owned ho
  have havoids : Avoids r := .performed hperformed (avoids w.store)
  rcases hperformed.transaction_cases with ⟨e, rfl, rfl⟩ | ⟨token, a, s, rfl, hs, rfl⟩
  · have ho₂ : A.Owned ((sc.at_ w').after (.transaction t) (.error e) w') :=
      (Calm.of_unchanged ho₁ touches).owned ho₁
    refine ⟨ho₂, (fun _ ha => nomatch ha), ?_⟩
    intro e' he'
    exact ⟨fun he => havoids (he'.trans (congrArg Except.error he)), ho₂⟩
  · obtain ⟨ho₂, hok⟩ := commit w token a s hcalm ho₁ hs
    refine ⟨ho₂, ?_, (fun _ he => nomatch he)⟩
    intro a' ha'
    cases ha'
    exact hok

section Preparation
variable {claim : ExecutionClaim} {snapshot : TemplateSourceSnapshot} {archive : TemplateArchive}

/-- What the deployment records recognises the templates of the assignment, also
after a publication has prepared it. -/
theorem Owned.known_aimed (ho : A.Owned sc) {a : TemplateAssignment}
    (present : A.assignment sc.world = some a) (hs : A.SameTarget sc snapshot archive)
    {d : TemplateDeployment} (row : d = (A.deployment sc.world).getD Store.newDeployment) :
    A.Known d.coderTemplateId
      (d.keptVersion archive.commit snapshot.systemParameterRevision) sc := by
  intro id t hid ht
  obtain ⟨d₀, hd₀, hknown⟩ := ho.known a present id t hid ht
  obtain rfl : d = d₀ := by rw [row, hd₀, Option.getD_some]
  by_cases hrec : d.coderTemplateId = some id
  · exact .inl hrec
  · have hunrecorded : ¬A.Records sc.world id := by
      rintro ⟨d₁, hd₁, hid₁⟩
      cases hd₀.symm.trans hd₁
      exact hrec hid₁
    obtain ⟨d₁, hd₁, hcommit, hrevision⟩ := hs id t hid ht hunrecorded
    cases hd₀.symm.trans hd₁
    refine .inr ?_
    rw [TemplateDeployment.keptVersion, if_pos ⟨hcommit, hrevision⟩]
    exact hknown.resolve_left hrec

theorem Owned.recorded_aimed (ho : A.Owned sc) {d : TemplateDeployment}
    (row : d = (A.deployment sc.world).getD Store.newDeployment) (commit : String) (revision : Nat) :
    (∀ id, d.coderTemplateId = some id → A.Created sc.history id) ∧
      ∀ id, d.keptVersion commit revision = some id → A.Made sc.history id := by
  cases hd : A.deployment sc.world with
  | none =>
      rw [hd] at row
      subst row
      refine ⟨(fun id hid => nomatch hid), fun id hid => ?_⟩
      rw [TemplateDeployment.keptVersion] at hid
      split at hid <;> cases hid
  | some d₀ =>
      obtain rfl : d = d₀ := by rw [row, hd, Option.getD_some]
      refine ⟨fun id hid => ho.templateId d id hd hid, fun id hid => ?_⟩
      rw [TemplateDeployment.keptVersion] at hid
      split at hid
      · exact ho.versionId d id hd hid
      · cases hid

theorem attempts_prepare (ho : A.Owned sc) (hs : A.SameTarget sc snapshot archive) :
    A.Attempts (transact (.prepareDeployment claim A.assignmentId snapshot.id archive.commit
        snapshot.systemParameterRevision)) sc
      (fun p sc' => A.Owned sc' ∧ (p.alreadyApplied = false → p.instanceUrl = A.url ∧
        A.Window p.persistedTemplateId p.persistedVersionId sc' ∧
        A.Known p.persistedTemplateId p.persistedVersionId sc'))
      (fun e sc' => e ≠ ownedOutside ∧ A.Owned sc') := by
  refine attempts_write (fun s _ => .prepareDeployment s _ _ _ _ _) (fun _ hid => nomatch hid) ho ?_
  intro w token p s hcalm ho₁ hprepared
  obtain ⟨target, d, htarget, hrow, hcases⟩ := Store.prepareDeployment_ok hprepared
  obtain ⟨job, a, i, t, -, -, ha, -, -, -, -, rfl⟩ := Store.lockOwnedTemplateTarget_ok htarget
  rcases hcases with ⟨-, happlied, rfl⟩ | ⟨-, -, hurl, htid, hvid, hwritten⟩
  · have ho₂ := (Calm.of_unchanged (o := .transaction (.prepareDeployment claim A.assignmentId
      snapshot.id archive.commit snapshot.systemParameterRevision)) (r := .ok p) ho₁
      (fun _ hid => nomatch hid)).owned ho₁
    exact ⟨ho₂, ho₂, fun hfresh => absurd (happlied.symm.trans hfresh) (by decide)⟩
  · have hknown := ho₁.known_aimed ha (hcalm.sameTarget ha hs) hrow
    obtain ⟨hcreated, hmade⟩ := ho₁.recorded_aimed hrow archive.commit
      snapshot.systemParameterRevision
    have hrow' : s.deployments.lookup A.assignmentId =
        some (d.aimed archive.commit snapshot.systemParameterRevision) := by
      rw [hwritten]
      exact Table.lookup_insert_self _ _ _
    have hrecord := ho₁.record (o := .transaction (.prepareDeployment claim A.assignmentId
      snapshot.id archive.commit snapshot.systemParameterRevision)) (r := .ok p)
      (by rw [hwritten]; rfl) hrow' hcreated hmade hknown (fun _ hid => nomatch hid) rfl
    refine ⟨hrecord.1, hrecord.1, fun _ => ⟨hurl.trans (ho₁.place a ha), ?_⟩⟩
    rw [htid, hvid]
    exact hrecord.2

end Preparation
section Recognition
variable {templateId versionId : Option UUID}

/-- The recorded identifiers recognise the templates of the assignment. -/
def Ready (A : PublicationTarget σ) (templateId versionId : Option UUID) (sc : Scene σ) : Prop :=
  A.Window templateId versionId sc ∧ A.Known templateId versionId sc

theorem stable_ready : A.Stable (A.Ready templateId versionId) :=
  fun _ _ hcalm h => ⟨hcalm.window h.1, hcalm.known h.1 h.2⟩

theorem Stable.and {P Q : Scene σ → Prop} (hP : A.Stable P) (hQ : A.Stable Q) :
    A.Stable fun sc => P sc ∧ Q sc :=
  fun sc sc' hcalm h => ⟨hP sc sc' hcalm h.1, hQ sc sc' hcalm h.2⟩

/-- What the recorded identifier found. -/
structure Persisted (A : PublicationTarget σ) (templateId : Option UUID)
    (persisted : Option CoderTemplate) (sc : Scene σ) : Prop where
  here : ∀ t, persisted = some t → templateId = some t.id ∧ A.Among (· = t.id) sc
  gone : persisted = none → A.Among (fun id => templateId ≠ some id) sc

theorem stable_persisted {persisted : Option CoderTemplate} :
    A.Stable (A.Persisted templateId persisted) := by
  intro sc sc' hcalm h
  exact ⟨fun t ht => ⟨(h.here t ht).1, hcalm.among (h.here t ht).2⟩,
    fun hnone => hcalm.among (h.gone hnone)⟩

theorem attempts_read [A.service.Lawful A.url] {c : Call α} {P : Scene σ → Prop} {a : σ → α}
    (read : ∀ r r' found, A.service.answers c r (.ok found) r' → found = a r)
    (hq : c.keepsTemplates = true) (hstable : A.Stable P) (ho : A.Owned sc) (hp : P sc) :
    A.Attempts (request c) sc
      (fun b sc' => A.Owned sc' ∧ P sc' ∧ ∃ w : Setting σ, b = a w.remote ∧
        A.service.Keeps w.remote sc'.world.remote ∧
        sc'.history = ⟨w, ⟨.call c, .ok b⟩, sc'.world⟩ :: sc.history)
      (fun e sc' => e ≠ ownedOutside ∧ A.Owned sc') := by
  refine attempts_operation ho fun w w' r hcalm hperformed hhonest => ?_
  have ho₁ := hcalm.owned ho
  have hcalm₁ := calm_quiet (o := .call c) hq ho₁ hperformed
  have ho₂ := hcalm₁.owned ho₁
  obtain ⟨hanswered, -⟩ := hperformed.call_cases
  refine ⟨ho₂, fun b hb => ⟨ho₂, hstable _ _ hcalm₁ (hstable _ _ hcalm hp), w, ?_, ?_, ?_⟩, ?_⟩
  · subst hb
    exact read _ _ _ hanswered
  · exact TemplateService.Lawful.keeps A.url _ _ _ _ hq hanswered
  · subst hb
    rfl
  · rintro e rfl
    exact ⟨fun he => hhonest c rfl (congrArg Except.error he), ho₂⟩

theorem attempts_template [A.service.Lawful A.url] {id : UUID} (ho : A.Owned sc)
    (hr : A.Ready (some id) versionId sc) :
    A.Attempts (request (.template A.url id)) sc
      (fun persisted sc' => A.Owned sc' ∧ A.Ready (some id) versionId sc' ∧
        A.Persisted (some id) persisted sc')
      (fun e sc' => e ≠ ownedOutside ∧ A.Owned sc') := by
  refine (attempts_read (fun r r' => TemplateService.Lawful.readTemplate r r' id) rfl stable_ready ho
    hr).mono ?_ (fun _ _ h => h)
  rintro persisted sc' ⟨ho', hr', w, hpersisted, hkept, -⟩
  refine ⟨ho', hr', fun t ht => ?_, fun hnone => ?_⟩
  · rw [hpersisted] at ht
    obtain ⟨t₀, ht₀, rfl⟩ := Option.map_eq_some_iff.mp ht
    refine ⟨rfl, fun id' hid' halive => ?_⟩
    refine ho'.one id' id hid' (hr'.1.created id rfl) halive ?_
    exact Option.isSome_iff_exists.mpr ⟨t₀, (hkept.templates id).trans ht₀⟩
  · intro id' _ halive heq
    cases heq
    rw [hpersisted] at hnone
    have hgone := (hkept.templates id).trans (Option.map_eq_none_iff.mp hnone)
    rw [template, hgone] at halive
    cases halive

/-- What the name finds. -/
structure Named (A : PublicationTarget σ) (named : Option CoderTemplate) (sc : Scene σ) : Prop where
  met : sc.history.met = named
  absent : named = none → ∀ id t, A.template sc.world id = some t → t.name ≠ A.name
  present : ∀ n, named = some n → ∃ t, A.template sc.world n.id = some t ∧
    n.activeVersionId = some t.activeVersionId

theorem attempts_templateByName [A.service.Lawful A.url] {persisted : Option CoderTemplate}
    (organizationId : UUID)
    (ho : A.Owned sc) (hr : A.Ready templateId versionId sc)
    (hp : A.Persisted templateId persisted sc) :
    A.Attempts (request (.templateByName A.url organizationId A.name)) sc
      (fun named sc' => A.Owned sc' ∧ A.Ready templateId versionId sc' ∧
        A.Persisted templateId persisted sc' ∧ A.Named named sc')
      (fun e sc' => e ≠ ownedOutside ∧ A.Owned sc') := by
  refine (attempts_read
    (fun r r' => TemplateService.Lawful.readTemplateByName r r' organizationId A.name) rfl
    (stable_ready.and stable_persisted) ho ⟨hr, hp⟩).mono ?_ (fun _ _ h => h)
  rintro named sc' ⟨ho', ⟨hr', hp'⟩, w, hnamed, hkept, hhistory⟩
  refine ⟨ho', hr', hp', ?_, fun hnone id t ht => ?_, fun n hn => ?_⟩
  · rw [hhistory]
    rfl
  · have ht' : A.service.template w.remote id = some t := (hkept.templates id).symm.trans ht
    refine TemplateService.Lawful.unnamed A.url w.remote A.name ?_ id t ht'
    rw [hnamed] at hnone
    cases hfound : A.service.templateNamed w.remote A.name with
    | none => rfl
    | some id' =>
        obtain ⟨t', ht', -⟩ := TemplateService.Lawful.templateNamed A.url _ _ _ hfound
        rw [hfound, Option.bind_some, TemplateService.viewTemplate, ht'] at hnone
        cases hnone
  · rw [hnamed] at hn
    obtain ⟨id, -, hview⟩ := Option.bind_eq_some_iff.mp hn
    obtain ⟨t, ht, rfl⟩ := Option.map_eq_some_iff.mp hview
    exact ⟨t, (hkept.templates id).trans ht, rfl⟩

/-- The template a publication goes on with: one of the assignment, and the only
one left of them, or none is left. -/
structure Settled (A : PublicationTarget σ) (remote : Option CoderTemplate) (sc : Scene σ) : Prop where
  here : ∀ t, remote = some t → A.Created sc.history t.id ∧ A.Among (· = t.id) sc
  gone : remote = none → A.Among (fun _ => False) sc

theorem stable_settled {remote : Option CoderTemplate} : A.Stable (A.Settled remote) := by
  intro sc sc' hcalm h
  refine ⟨fun t ht => ?_, fun hnone => hcalm.among (h.gone hnone)⟩
  exact ⟨(hcalm.created t.id).mpr (h.here t ht).1, hcalm.among (h.here t ht).2⟩

theorem Settled.after {remote : Option CoderTemplate} {o : Op α} {r : Except WorkerError α}
    {w : Setting σ} (hs : A.Settled remote sc) (kept : A.service.Keeps sc.world.remote w.remote) :
    A.Settled remote (sc.after o r w) := by
  have hcreated := created_after (A := A) (o := o) (r := r) kept
  have halive : ∀ good, A.Among good sc → A.Among good (sc.after o r w) := by
    intro good hgood id hid halive
    apply hgood id ((hcreated id).mp hid)
    rw [← halive, template, ← kept.templates]
    rfl
  exact ⟨fun t ht => ⟨(hcreated t.id).mpr (hs.here t ht).1, halive _ (hs.here t ht).2⟩,
    fun hnone => halive _ (hs.gone hnone)⟩

theorem Ready.recognises {n : CoderTemplate} (hr : A.Ready templateId versionId sc)
    (hn : A.Named (some n) sc) (own : A.Created sc.history n.id) :
    templateId = some n.id ∨ (versionId.isSome = true ∧ n.activeVersionId = versionId) := by
  obtain ⟨t, ht, hactive⟩ := hn.present n rfl
  rcases hr.2 n.id t own ht with hid | ⟨-, hversion⟩
  · exact .inl hid
  · exact .inr ⟨by simp [hversion], hactive.trans hversion.symm⟩

theorem Ready.recognised {n : CoderTemplate} (ho : A.Owned sc)
    (hr : A.Ready templateId versionId sc) (hn : A.Named (some n) sc)
    (h : templateId = some n.id ∨ (versionId.isSome = true ∧ n.activeVersionId = versionId)) :
    A.Created sc.history n.id := by
  rcases h with hid | ⟨-, hversion⟩
  · exact hr.1.created n.id hid
  · obtain ⟨t, ht, hactive⟩ := hn.present n rfl
    by_contra hforeign
    exact ho.theirs n.id t hforeign ht (hr.1.made _ (hversion.symm.trans hactive))

theorem Raises.of_other {e : WorkerError} {sc' : Scene σ} (h : e ≠ ownedOutside ∧ A.Owned sc') :
    A.Raises e sc' := .of_ne h.2 h.1

theorem attempts_persistedTemplate [A.service.Lawful A.url] (ho : A.Owned sc)
    (hr : A.Ready templateId versionId sc) :
    A.Attempts (persistedTemplate A.url templateId) sc
      (fun persisted sc' => A.Owned sc' ∧ A.Ready templateId versionId sc' ∧
        A.Persisted templateId persisted sc') A.Raises := by
  cases templateId with
  | none => exact ⟨ho, hr, (fun _ ht => nomatch ht), fun _ _ _ _ heq => nomatch heq⟩
  | some id => exact (attempts_template ho hr).mono (fun _ _ h => h) (fun _ _ => .of_other)

/-- A rejected template is not one of the assignment, and an accepted one is. -/
theorem attempts_recognise {persisted named : Option CoderTemplate} (ho : A.Owned sc)
    (hr : A.Ready templateId versionId sc) (hp : A.Persisted templateId persisted sc)
    (hn : A.Named named sc) :
    A.Attempts (recogniseTemplate templateId versionId persisted named) sc
      (fun found sc' => A.Owned sc' ∧ A.Window templateId versionId sc' ∧ A.Settled found.1 sc')
      A.Raises := by
  cases persisted with
  | some p =>
      obtain ⟨hid, honly⟩ := hp.here p rfl
      have hsettled : A.Settled (some p) sc := by
        refine ⟨fun t ht => ?_, (fun hnone => nomatch hnone)⟩
        cases ht
        exact ⟨hr.1.created p.id hid, honly⟩
      cases named with
      | none => exact ⟨ho, hr.1, hsettled⟩
      | some n =>
          refine upholds_ite (fun hne => ⟨ho, fun _ => ⟨n, hn.met, fun hown => hne ?_⟩⟩)
            fun _ => ⟨ho, hr.1, hsettled⟩
          obtain ⟨t, ht, -⟩ := hn.present n rfl
          exact honly n.id hown (by simp [ht])
  | none =>
      have hgone := hp.gone rfl
      cases named with
      | none =>
          refine ⟨ho, hr.1, (fun _ ht => nomatch ht), fun _ id hid halive => ?_⟩
          obtain ⟨t, ht⟩ := Option.isSome_iff_exists.mp halive
          rcases hr.2 id t hid ht with hrec | ⟨hname, -⟩
          · exact hgone id hid halive hrec
          · exact hn.absent rfl id t ht hname
      | some n =>
          refine upholds_ite (fun hrecovered => ⟨ho, hr.1, ?_⟩)
            fun hunknown => ⟨ho, fun _ => ⟨n, hn.met, fun hown => hunknown (hr.recognises hn hown)⟩⟩
          have hown := hr.recognised ho hn hrecovered
          obtain ⟨t, ht, -⟩ := hn.present n rfl
          refine ⟨fun t' ht' => ?_, (fun hnone => nomatch hnone)⟩
          cases ht'
          exact ⟨hown, fun id hid halive => ho.one id n.id hid hown halive (by simp [ht])⟩

theorem attempts_managedRemoteTemplate [A.service.Lawful A.url] (organizationId : UUID)
    (ho : A.Owned sc)
    (hr : A.Ready templateId versionId sc) :
    A.Attempts (managedRemoteTemplate A.url organizationId A.name templateId versionId) sc
      (fun found sc' => A.Owned sc' ∧ A.Window templateId versionId sc' ∧ A.Settled found.1 sc')
      A.Raises := by
  rw [managedRemoteTemplate_eq]
  refine .bind (attempts_persistedTemplate ho hr) ?_ (fun _ _ h => h)
  rintro persisted sc₁ ⟨ho₁, hr₁, hp₁⟩
  refine .bind (attempts_templateByName organizationId ho₁ hr₁ hp₁) ?_ (fun _ _ => .of_other)
  rintro named sc₂ ⟨ho₂, hr₂, hp₂, hn₂⟩
  exact attempts_recognise ho₂ hr₂ hp₂ hn₂

end Recognition
section Recording
variable {claim : ExecutionClaim} {templateId versionId : Option UUID} {remote : Option CoderTemplate}

theorem Settled.known (hs : A.Settled remote sc)
    (recorded : ∀ t, remote = some t → templateId = some t.id) : A.Known templateId versionId sc := by
  intro id t hid ht
  have halive : (A.template sc.world id).isSome = true := by simp [ht]
  cases remote with
  | none => exact (hs.gone rfl id hid halive).elim
  | some t' =>
      rw [(hs.here t' rfl).2 id hid halive]
      exact .inl (recorded t' rfl)

theorem or_of_orElse {x y : Option UUID} {id : UUID} (h : (x <|> y) = some id) :
    x = some id ∨ y = some id := by
  cases x with
  | none => exact .inr h
  | some id' => exact .inl h

theorem avoids_stored (s : Store) (token : String) (id : UUID)
    (organizationId templateId' versionId' : Option UUID) :
    Avoids (s.transact token (.storeTemplateRemoteIds claim id organizationId templateId'
      versionId')) :=
  .bind (.storeTemplateRemoteIds s claim id organizationId templateId' versionId') fun _ => .ok _

theorem attempts_store (organizationId templateId' versionId' : Option UUID) (ho : A.Owned sc)
    (hw : A.Window templateId versionId sc) (hs : A.Settled remote sc)
    (recorded : ∀ t, remote = some t → (templateId' <|> templateId) = some t.id)
    (created : ∀ id, templateId' = some id → A.Created sc.history id)
    (made : ∀ id, versionId' = some id → A.Made sc.history id) :
    A.Attempts (transact (.storeTemplateRemoteIds claim A.assignmentId organizationId templateId'
        versionId')) sc
      (fun _ sc' => A.Owned sc' ∧ A.Window (templateId' <|> templateId) (versionId' <|> versionId) sc' ∧
        A.Settled remote sc')
      (fun e sc' => e ≠ ownedOutside ∧ A.Owned sc') := by
  refine attempts_write (fun s token => avoids_stored s token _ _ _ _) created ho ?_
  intro w token a s hcalm ho₁ hstored
  have hw₁ := hcalm.window hw
  have hs₁ := stable_settled _ _ hcalm hs
  obtain ⟨s₁, hs', heq⟩ := bind_eq_ok.mp hstored
  cases heq
  obtain ⟨target, d, -, hd, hwritten⟩ := Store.storeTemplateRemoteIds_ok hs'
  obtain ⟨htid, hvid⟩ := hw₁.recorded d hd
  have hrow : s.deployments.lookup A.assignmentId =
      some (d.identified organizationId templateId' versionId') := by
    rw [hwritten]
    simp [hd]
  have htemplate : (d.identified organizationId templateId' versionId').coderTemplateId =
      (templateId' <|> templateId) := by
    rw [← htid]
    rfl
  have hversion : (d.identified organizationId templateId' versionId').coderTemplateVersionId =
      (versionId' <|> versionId) := by
    rw [← hvid]
    rfl
  have hcreated : ∀ id, (templateId' <|> templateId) = some id → A.Created sc.history id := by
    intro id hid
    rcases or_of_orElse hid with hid | hid
    · exact created id hid
    · exact hw₁.created id hid
  have hmade : ∀ id, (versionId' <|> versionId) = some id → A.Made sc.history id := by
    intro id hid
    rcases or_of_orElse hid with hid | hid
    · exact made id hid
    · exact hw₁.made id hid
  have hrecord := ho₁.record (o := .transaction (.storeTemplateRemoteIds claim A.assignmentId
    organizationId templateId' versionId')) (r := .ok ()) (by rw [hwritten]; rfl) hrow
    (htemplate ▸ hcreated) (hversion ▸ hmade) (hs₁.known (htemplate ▸ recorded)) created rfl
  rw [htemplate, hversion] at hrecord
  exact ⟨hrecord.1, hrecord.1, hrecord.2.1, hs₁.after (.refl _)⟩

end Recording

end PublicationTarget
end CoderManager
