import CoderManager.Refinement.Recognition

/-!
# The version of a publication

The later steps of a publication, wherever they stop: a version is found or
imported, waited for, and activated on the template or made into one.
-/
namespace CoderManager
open Programs Tables

variable {σ : Type}

namespace PublicationTarget
variable {A : PublicationTarget σ} {sc : Scene σ} {α : Type}

section Importing
variable {templateId versionId : Option UUID} {remote : Option CoderTemplate} {o : Op α}
  {r : Except WorkerError α} {w : Setting σ}

/-- One new version, which no template has as its active one. -/
structure Imported (A : PublicationTarget σ) (w w' : Setting σ) (id : UUID) (v : RemoteVersion) :
    Prop where
  store : w'.store = w.store
  remote : A.service.Imports w.remote w'.remote id v

variable {id : UUID} {v : RemoteVersion}

theorem Imported.created (h : A.Imported sc.world w id v) (id' : UUID) :
    A.Created (sc.after o r w).history id' ↔ A.Created sc.history id' := by
  refine created_cons.trans (or_iff_right ?_)
  rintro ⟨hnone, hsome⟩
  unfold template at hnone hsome
  rw [h.remote.templates, hnone] at hsome
  cases hsome

theorem Imported.made [A.service.Lawful A.url] (h : A.Imported sc.world w id v) (id' : UUID) :
    A.Made (sc.after o r w).history id' ↔ id' = id ∨ A.Made sc.history id' := by
  refine made_cons.trans (or_congr_left ?_)
  constructor
  · rintro ⟨hnone, hsome⟩
    by_contra hne
    unfold version at hnone hsome
    rw [h.remote.versions id' hne, hnone] at hsome
    cases hsome
  · rintro rfl
    refine ⟨?_, Option.isSome_iff_exists.mpr ⟨v, h.remote.version⟩⟩
    cases hold : A.version sc.world id' with
    | none => rfl
    | some v₀ =>
        exact absurd (TemplateService.Lawful.issuedVersion A.url _ id' v₀ hold) h.remote.fresh

theorem Imported.owned [A.service.Lawful A.url] (h : A.Imported sc.world w id v) (ho : A.Owned sc)
    (touches : ∀ id', (Moment.mk sc.world ⟨o, r⟩ w).touched = some id' → A.Created sc.history id') :
    A.Owned (sc.after o r w) := by
  have hcreated := h.created (o := o) (r := r)
  have hmade := h.made (o := o) (r := r)
  have hdeployment : A.deployment w = A.deployment sc.world := by rw [deployment, h.store]; rfl
  have hassignment : A.assignment w = A.assignment sc.world := by rw [assignment, h.store]; rfl
  have htemplate : ∀ id', A.template w id' = A.template sc.world id' := h.remote.templates
  constructor
  · exact fun id' hid => h.remote.issued id' (ho.created id' ((hcreated id').mp hid))
  · intro id' hid
    rcases (hmade id').mp hid with rfl | hid
    · exact TemplateService.Lawful.issuedVersion A.url _ _ v h.remote.version
    · exact h.remote.issued id' (ho.made id' hid)
  · exact fun a ha => ho.place a (hassignment ▸ ha)
  · exact fun d id' hd hid => (hcreated id').mpr (ho.templateId d id' (hdeployment ▸ hd) hid)
  · exact fun d id' hd hid => (hmade id').mpr (.inr (ho.versionId d id' (hdeployment ▸ hd) hid))
  · intro a ha id' t hid ht
    obtain ⟨d, hd, hknown⟩ := ho.known a (hassignment ▸ ha) id' t ((hcreated id').mp hid)
      (htemplate id' ▸ ht)
    exact ⟨d, hdeployment ▸ hd, hknown⟩
  · intro id' id'' hid hid' halive halive'
    exact ho.one id' id'' ((hcreated id').mp hid) ((hcreated id'').mp hid')
      (htemplate id' ▸ halive) (htemplate id'' ▸ halive')
  · intro id' t hid ht hm
    have ht' : A.template sc.world id' = some t := htemplate id' ▸ ht
    rcases (hmade _).mp hm with heq | hm
    · have hissued := (TemplateService.Lawful.issuedTemplate A.url _ id' t ht').2
      exact h.remote.fresh (heq ▸ hissued)
    · exact ho.theirs id' t (fun hc => hid ((hcreated id').mpr hc)) ht' hm
  · exact touchesOwn_cons.mpr ⟨touches, ho.touches⟩

theorem Imported.window [A.service.Lawful A.url] (h : A.Imported sc.world w id v)
    (hw : A.Window templateId versionId sc) : A.Window templateId versionId (sc.after o r w) := by
  have hdeployment : A.deployment w = A.deployment sc.world := by rw [deployment, h.store]; rfl
  have hassignment : A.assignment w = A.assignment sc.world := by rw [assignment, h.store]; rfl
  constructor
  · intro ha
    change (A.deployment w).isSome = true
    rw [hdeployment]
    exact hw.live (hassignment ▸ ha)
  · exact fun d hd => hw.recorded d (hdeployment ▸ hd)
  · exact fun id' hid => (h.created id').mpr (hw.created id' hid)
  · exact fun id' hid => (h.made id').mpr (.inr (hw.made id' hid))

theorem Imported.settled (h : A.Imported sc.world w id v) (hs : A.Settled remote sc) :
    A.Settled remote (sc.after o r w) := by
  have halive : ∀ good, A.Among good sc → A.Among good (sc.after o r w) := by
    intro good hgood id' hid halive
    refine hgood id' ((h.created id').mp hid) ?_
    rw [← halive, template, ← h.remote.templates]
    rfl
  exact ⟨fun t ht => ⟨(h.created t.id).mpr (hs.here t ht).1, halive _ (hs.here t ht).2⟩,
    fun hnone => halive _ (hs.gone hnone)⟩

theorem attempts_createVersion [A.service.Lawful A.url] (organizationId fileId : UUID)
    (name : String)
    (parent : Option UUID) (values : List (String × String)) (ho : A.Owned sc)
    (hw : A.Window templateId versionId sc) (hs : A.Settled remote sc) :
    A.Attempts (request (.createTemplateVersion A.url organizationId fileId name parent values)) sc
      (fun version sc' => A.Owned sc' ∧ A.Window templateId versionId sc' ∧ A.Settled remote sc' ∧
        A.Made sc'.history version.id)
      (fun e sc' => e ≠ ownedOutside ∧ A.Owned sc') := by
  refine attempts_operation ho fun w w' r hcalm hperformed hhonest => ?_
  have ho₁ := hcalm.owned ho
  have hhonest' : ∀ e, r = .error e → e ≠ ownedOutside :=
    fun e he heq => hhonest _ rfl (he.trans (congrArg Except.error heq))
  obtain ⟨hanswered, hstore⟩ := hperformed.call_cases
  rcases TemplateService.Lawful.createVersion _ _ _ _ _ _ _ _ hanswered with
    ⟨hkept, e, rfl⟩ | ⟨id, v, himports, hid⟩
  · have ho₂ := (Calm.of_keeps (o := .call (.createTemplateVersion A.url organizationId fileId name
      parent values)) (r := .error e) ho₁ hkept (.of_eq (by rw [hstore]; rfl) (by rw [hstore]; rfl))
      (fun _ hid => nomatch hid)).owned ho₁
    exact ⟨ho₂, (fun _ ha => nomatch ha), fun e' he' => ⟨hhonest' e' he', ho₂⟩⟩
  · have himported : A.Imported (sc.at_ w).world w' id v := ⟨hstore, himports⟩
    have ho₂ : A.Owned ((sc.at_ w).after (.call (.createTemplateVersion A.url organizationId fileId
      name parent values)) r w') := himported.owned ho₁ (fun _ hid => nomatch hid)
    refine ⟨ho₂, fun version hversion => ?_, fun e he => ⟨hhonest' e he, ho₂⟩⟩
    refine ⟨ho₂, himported.window (hcalm.window hw),
      himported.settled (stable_settled _ _ hcalm hs), ?_⟩
    rw [hid version hversion]
    exact (himported.made id).mpr (.inl rfl)

end Importing
section Choosing
variable {templateId : Option UUID} {remote : Option CoderTemplate} {claim : ExecutionClaim}
  {snapshot : TemplateSourceSnapshot} {archive : TemplateArchive}
  {preparation : TemplateDeploymentPreparation} {v : UUID}

/-- The version to publish. Where no template is left, it is the recorded one. -/
structure Chosen (A : PublicationTarget σ) (templateId : Option UUID) (remote : Option CoderTemplate)
    (v : UUID) (sc : Scene σ) : Prop where
  window : ∃ versionId, A.Window templateId versionId sc ∧ (remote = none → versionId = some v)
  settled : A.Settled remote sc

theorem stable_chosen : A.Stable (A.Chosen templateId remote v) := by
  intro sc sc' hcalm h
  obtain ⟨versionId, hw, hv⟩ := h.window
  exact ⟨⟨versionId, hcalm.window hw, hv⟩, stable_settled _ _ hcalm h.settled⟩

theorem stable_window {versionId : Option UUID} : A.Stable (A.Window templateId versionId) :=
  fun _ _ hcalm h => hcalm.window h

theorem attempts_versionOfName [A.service.Lawful A.url] {versionId : Option UUID}
    (organizationId : UUID) (foundByName : Bool)
    (url : preparation.instanceUrl = A.url) (ho : A.Owned sc)
    (hw : A.Window templateId versionId sc) (hs : A.Settled remote sc) :
    A.Attempts (versionOfName organizationId snapshot archive preparation remote foundByName) sc
      (fun named sc' => A.Owned sc' ∧ A.Window templateId versionId sc' ∧ A.Settled remote sc' ∧
        (named.isSome = true → remote ≠ none))
      (fun e sc' => e ≠ ownedOutside ∧ A.Owned sc') := by
  refine upholds_ite (fun hfound => ?_) fun _ => ⟨ho, hw, hs, fun h => nomatch h⟩
  rw [url]
  refine (attempts_request rfl (stable_window.and stable_settled) ho ⟨hw, hs⟩).mono ?_
    (fun _ _ h => ⟨h.1, h.2.1⟩)
  rintro named sc' ⟨ho', hw', hs'⟩
  refine ⟨ho', hw', hs', fun _ => ?_⟩
  rintro rfl
  cases hfound

theorem attempts_recoveredVersion [A.service.Lawful A.url] (url : preparation.instanceUrl = A.url)
    {named : Option CoderTemplateVersion} (ho : A.Owned sc)
    (hw : A.Window templateId preparation.persistedVersionId sc) (hs : A.Settled remote sc)
    (hn : named.isSome = true → remote ≠ none) :
    A.Attempts (recoveredVersion preparation named) sc
      (fun recovered sc' => A.Owned sc' ∧ A.Window templateId preparation.persistedVersionId sc' ∧
        A.Settled remote sc' ∧
        ∀ version, recovered = some version → A.Chosen templateId remote version.id sc')
      (fun e sc' => e ≠ ownedOutside ∧ A.Owned sc') := by
  cases named with
  | some version =>
      refine ⟨ho, hw, hs, fun version' hversion => ?_⟩
      cases hversion
      exact ⟨⟨_, hw, fun hnone => absurd hnone (hn rfl)⟩, hs⟩
  | none =>
      simp only [recoveredVersion]
      cases hpersisted : preparation.persistedVersionId with
      | none =>
          refine ⟨ho, hpersisted ▸ hw, hs, ?_⟩
          rintro _ ⟨⟩
      | some id =>
          simp only [url]
          rw [hpersisted] at hw
          refine (attempts_read
            (fun r r' => TemplateService.Lawful.readVersionForRecovery r r' id) rfl
            (stable_window.and stable_settled) ho ⟨hw, hs⟩).mono ?_ (fun _ _ h => h)
          rintro recovered sc' ⟨ho', ⟨hw', hs'⟩, w, hrecovered, -⟩
          refine ⟨ho', hw', hs', fun version hversion => ?_⟩
          rw [hrecovered] at hversion
          obtain ⟨found, -, rfl⟩ := Option.map_eq_some_iff.mp hversion
          exact ⟨⟨_, hw', fun _ => rfl⟩, hs'⟩

theorem attempts_importedVersion [A.service.Lawful A.url] (organizationId : UUID)
    (url : preparation.instanceUrl = A.url)
    {recovered : Option CoderTemplateVersion} (ho : A.Owned sc)
    (hw : A.Window templateId preparation.persistedVersionId sc) (hs : A.Settled remote sc)
    (recorded : ∀ t, remote = some t → templateId = some t.id)
    (hr : ∀ version, recovered = some version → A.Chosen templateId remote version.id sc) :
    A.Attempts (importedVersion claim A.assignmentId organizationId snapshot archive preparation
        remote recovered) sc
      (fun version sc' => A.Owned sc' ∧ A.Chosen templateId remote version.id sc')
      (fun e sc' => e ≠ ownedOutside ∧ A.Owned sc') := by
  cases recovered with
  | some version => exact ⟨ho, hr version rfl⟩
  | none =>
      simp only [importedVersion, url]
      refine .bind (attempts_request rfl (stable_window.and stable_settled) ho ⟨hw, hs⟩) ?_
        (fun _ _ h => ⟨h.1, h.2.1⟩)
      rintro fileId sc₁ ⟨ho₁, hw₁, hs₁⟩
      refine .bind (attempts_createVersion organizationId fileId _ _ _ ho₁ hw₁ hs₁) ?_
        (fun _ _ h => h)
      rintro version sc₂ ⟨ho₂, hw₂, hs₂, hmade⟩
      refine .bind (attempts_store none none (some version.id) ho₂ hw₂ hs₂ recorded
        (fun _ h => nomatch h) ?_) ?_ (fun _ _ h => h)
      · intro id hid
        cases hid
        exact hmade
      · rintro - sc₃ ⟨ho₃, hw₃, hs₃⟩
        exact ⟨ho₃, ⟨_, hw₃, fun _ => rfl⟩, hs₃⟩

theorem attempts_publishedVersion [A.service.Lawful A.url] (organizationId : UUID)
    (foundByName : Bool)
    (url : preparation.instanceUrl = A.url) (ho : A.Owned sc)
    (hw : A.Window templateId preparation.persistedVersionId sc) (hs : A.Settled remote sc)
    (recorded : ∀ t, remote = some t → templateId = some t.id) :
    A.Attempts (publishedVersion claim A.assignmentId organizationId snapshot archive preparation
        remote foundByName) sc
      (fun version sc' => A.Owned sc' ∧ A.Chosen templateId remote version.id sc')
      (fun e sc' => e ≠ ownedOutside ∧ A.Owned sc') := by
  rw [publishedVersion_eq]
  refine .bind (attempts_versionOfName organizationId foundByName url ho hw hs) ?_ (fun _ _ h => h)
  rintro named sc₁ ⟨ho₁, hw₁, hs₁, hn⟩
  refine .bind (attempts_recoveredVersion url ho₁ hw₁ hs₁ hn) ?_ (fun _ _ h => h)
  rintro recovered sc₂ ⟨ho₂, hw₂, hs₂, hr⟩
  exact attempts_importedVersion organizationId url ho₂ hw₂ hs₂ recorded hr

end Choosing

section Activating
variable {templateId : Option UUID} {remote : Option CoderTemplate} {claim : ExecutionClaim}
  {snapshot : TemplateSourceSnapshot} {archive : TemplateArchive}
  {preparation : TemplateDeploymentPreparation} {v : UUID}

theorem attempts_templateVersion [A.service.Lawful A.url] {P : Scene σ → Prop}
    (hstable : A.Stable P) (ho : A.Owned sc)
    (hp : P sc) (id : UUID) :
    A.Attempts (request (.templateVersion A.url id)) sc
      (fun version sc' => A.Owned sc' ∧ P sc' ∧ version.id = id)
      (fun e sc' => e ≠ ownedOutside ∧ A.Owned sc') := by
  refine attempts_operation ho fun w w' r hcalm hperformed hhonest => ?_
  have ho₁ := hcalm.owned ho
  have hcalm₁ := calm_quiet (o := .call (.templateVersion A.url id)) rfl ho₁ hperformed
  have ho₂ := hcalm₁.owned ho₁
  refine ⟨ho₂, fun version hversion => ⟨ho₂, hstable _ _ hcalm₁ (hstable _ _ hcalm hp), ?_⟩, ?_⟩
  · subst hversion
    have hview := TemplateService.Lawful.readVersion _ _ _ _ hperformed.call_cases.1
    obtain ⟨row, -, rfl⟩ := Option.map_eq_some_iff.mp hview
    rfl
  · rintro e rfl
    exact ⟨fun he => hhonest _ rfl (congrArg Except.error he), ho₂⟩

theorem attempts_waitTemplateVersion [A.service.Lawful A.url] {P : Scene σ → Prop}
    (hstable : A.Stable P) (fuel : Nat)
    (ho : A.Owned sc) (hp : P sc) (id : UUID) :
    A.Attempts (waitTemplateVersion A.url id (publicationHeartbeat claim) fuel) sc
      (fun version sc' => A.Owned sc' ∧ P sc' ∧ version.id = id)
      (fun e sc' => e ≠ ownedOutside ∧ A.Owned sc') := by
  induction fuel generalizing sc with
  | zero => exact trivial
  | succ fuel ih =>
      refine .bind (attempts_templateVersion hstable ho hp id) ?_ (fun _ _ h => h)
      rintro version sc₁ ⟨ho₁, hp₁, hid⟩
      have hpoll : A.Attempts (do
          if !(← request .beforeDeadline) then
            throw (.coderRequestError "Coder template import timed out")
          publicationHeartbeat claim
          waitTemplateVersion A.url id (publicationHeartbeat claim) fuel) sc₁
          (fun version sc' => A.Owned sc' ∧ P sc' ∧ version.id = id)
          (fun e sc' => e ≠ ownedOutside ∧ A.Owned sc') := by
        refine .bind (attempts_request rfl hstable ho₁ hp₁) ?_ (fun _ _ h => ⟨h.1, h.2.1⟩)
        rintro before sc₂ ⟨ho₂, hp₂⟩
        cases before with
        | false => exact ⟨by decide, ho₂⟩
        | true =>
            refine .bind (attempts_heartbeat claim hstable ho₂ hp₂) ?_ (fun _ _ h => ⟨h.1, h.2.1⟩)
            rintro - sc₃ ⟨ho₃, hp₃⟩
            exact ih ho₃ hp₃
      cases hstatus : version.status with
      | succeeded => exact ⟨ho₁, hp₁, hid⟩
      | failed | canceled | cancelled => exact ⟨by decide, ho₁⟩
      | pending | running | other name => exact hpoll

theorem attempts_readyVersion [A.service.Lawful A.url] {P : Scene σ → Prop} (hstable : A.Stable P)
    (fuel : Nat)
    (version : CoderTemplateVersion) (ho : A.Owned sc) (hp : P sc) :
    A.Attempts (readyVersion A.url (publicationHeartbeat claim) fuel version) sc
      (fun version' sc' => A.Owned sc' ∧ P sc' ∧ version'.id = version.id)
      (fun e sc' => e ≠ ownedOutside ∧ A.Owned sc') :=
  upholds_ite (fun _ => ⟨ho, hp, rfl⟩)
    fun _ => attempts_waitTemplateVersion hstable fuel ho hp version.id

theorem attempts_unarchiveVersion [A.service.Lawful A.url] {P : Scene σ → Prop}
    (hstable : A.Stable P)
    (version : CoderTemplateVersion) (ho : A.Owned sc) (hp : P sc) :
    A.Attempts (unarchiveVersion A.url version) sc (fun _ sc' => A.Owned sc' ∧ P sc')
      (fun e sc' => e ≠ ownedOutside ∧ A.Owned sc') := by
  refine upholds_ite (fun _ => ?_) fun _ => ⟨ho, hp⟩
  exact (attempts_request rfl hstable ho hp).mono (fun _ _ h => h) (fun _ _ h => ⟨h.1, h.2.1⟩)

/-- One new template. -/
structure Added (A : PublicationTarget σ) (w w' : Setting σ) (id : UUID) (t : RemoteTemplate) :
    Prop where
  store : w'.store = w.store
  remote : A.service.Adds w.remote w'.remote id t

section Added
variable {o : Op α} {r : Except WorkerError α} {w : Setting σ} {id : UUID} {t : RemoteTemplate}

theorem Added.created [A.service.Lawful A.url] (h : A.Added sc.world w id t) (id' : UUID) :
    A.Created (sc.after o r w).history id' ↔ id' = id ∨ A.Created sc.history id' := by
  refine created_cons.trans (or_congr_left ?_)
  constructor
  · rintro ⟨hnone, hsome⟩
    by_contra hne
    unfold template at hnone hsome
    rw [h.remote.templates id' hne, hnone] at hsome
    cases hsome
  · rintro rfl
    refine ⟨?_, Option.isSome_iff_exists.mpr ⟨t, h.remote.template⟩⟩
    cases hold : A.template sc.world id' with
    | none => rfl
    | some t₀ =>
        exact absurd (TemplateService.Lawful.issuedTemplate A.url _ id' t₀ hold).1 h.remote.fresh

theorem Added.made (h : A.Added sc.world w id t) (id' : UUID) :
    A.Made (sc.after o r w).history id' ↔ A.Made sc.history id' := by
  refine made_cons.trans (or_iff_right ?_)
  rintro ⟨hnone, hsome⟩
  unfold version at hnone hsome
  rw [h.remote.versions, hnone] at hsome
  cases hsome

theorem Added.among [A.service.Lawful A.url] (h : A.Added sc.world w id t)
    (hs : A.Among (fun _ => False) sc) :
    A.Among (· = id) (sc.after o r w) := by
  intro id' hid halive
  by_contra hne
  have hold := ((h.created id').mp hid).resolve_left hne
  refine hs id' hold ?_
  rw [← halive]
  exact congrArg Option.isSome (h.remote.templates id' hne).symm

theorem Added.owned [A.service.Lawful A.url] (h : A.Added sc.world w id t) (ho : A.Owned sc)
    (hc : A.Chosen templateId none t.activeVersionId sc) (named : t.name = A.name)
    (touches : ∀ id', (Moment.mk sc.world ⟨o, r⟩ w).touched = some id' → A.Created sc.history id') :
    A.Owned (sc.after o r w) := by
  obtain ⟨versionId, hw, hversion⟩ := hc.window
  have hcreated := h.created (o := o) (r := r)
  have hmade := h.made (o := o) (r := r)
  have hdeployment : A.deployment w = A.deployment sc.world := by rw [deployment, h.store]; rfl
  have hassignment : A.assignment w = A.assignment sc.world := by rw [assignment, h.store]; rfl
  have honly := h.among (o := o) (r := r) (hc.settled.gone rfl)
  constructor
  · intro id' hid
    rcases (hcreated id').mp hid with rfl | hid
    · exact (TemplateService.Lawful.issuedTemplate A.url _ _ t h.remote.template).1
    · exact h.remote.issued id' (ho.created id' hid)
  · exact fun id' hid => h.remote.issued id' (ho.made id' ((hmade id').mp hid))
  · exact fun a ha => ho.place a (hassignment ▸ ha)
  · exact fun d id' hd hid =>
      (hcreated id').mpr (.inr (ho.templateId d id' (hdeployment ▸ hd) hid))
  · exact fun d id' hd hid => (hmade id').mpr (ho.versionId d id' (hdeployment ▸ hd) hid)
  · intro a ha id' t' hid ht
    have hnew := honly id' hid (Option.isSome_iff_exists.mpr ⟨t', ht⟩)
    subst hnew
    cases h.remote.template.symm.trans ht
    obtain ⟨d, hd⟩ := Option.isSome_iff_exists.mp
      (hw.live (Option.isSome_iff_exists.mpr ⟨a, hassignment ▸ ha⟩))
    exact ⟨d, hdeployment ▸ hd, .inr ⟨named, (hw.recorded d hd).2.trans (hversion rfl)⟩⟩
  · intro id' id'' hid hid' halive halive'
    exact (honly id' hid halive).trans (honly id'' hid' halive').symm
  · intro id' t' hid ht hm
    have hne : id' ≠ id := fun heq => hid ((hcreated id').mpr (.inl heq))
    have ht' : A.template sc.world id' = some t' := (h.remote.templates id' hne).symm.trans ht
    exact ho.theirs id' t' (fun hc' => hid ((hcreated id').mpr (.inr hc'))) ht' ((hmade _).mp hm)
  · exact touchesOwn_cons.mpr ⟨touches, ho.touches⟩

theorem Added.window [A.service.Lawful A.url] {versionId : Option UUID}
    (h : A.Added sc.world w id t)
    (hw : A.Window templateId versionId sc) : A.Window templateId versionId (sc.after o r w) := by
  have hdeployment : A.deployment w = A.deployment sc.world := by rw [deployment, h.store]; rfl
  have hassignment : A.assignment w = A.assignment sc.world := by rw [assignment, h.store]; rfl
  constructor
  · intro ha
    change (A.deployment w).isSome = true
    rw [hdeployment]
    exact hw.live (hassignment ▸ ha)
  · exact fun d hd => hw.recorded d (hdeployment ▸ hd)
  · exact fun id' hid => (h.created id').mpr (.inr (hw.created id' hid))
  · exact fun id' hid => (h.made id').mpr (hw.made id' hid)

end Added

theorem attempts_createTemplate [A.service.Lawful A.url] (organizationId : UUID)
    (displayName : String) (ho : A.Owned sc)
    (hc : A.Chosen templateId none v sc) :
    A.Attempts (request (.createTemplate A.url organizationId A.name displayName v)) sc
      (fun created sc' => A.Owned sc' ∧ (∃ versionId, A.Window templateId versionId sc') ∧
        A.Settled (some created) sc')
      (fun e sc' => e ≠ ownedOutside ∧ A.Owned sc') := by
  refine attempts_operation ho fun w w' r hcalm hperformed hhonest => ?_
  have ho₁ := hcalm.owned ho
  have hc₁ := stable_chosen _ _ hcalm hc
  have hhonest' : ∀ e, r = .error e → e ≠ ownedOutside :=
    fun e he heq => hhonest _ rfl (he.trans (congrArg Except.error heq))
  obtain ⟨hanswered, hstore⟩ := hperformed.call_cases
  rcases TemplateService.Lawful.createTemplate _ _ _ _ _ _ _ hanswered with
    ⟨hkept, e, rfl⟩ | ⟨id, hadds, hid⟩
  · have ho₂ := (Calm.of_keeps (o := .call (.createTemplate A.url organizationId A.name displayName
      v)) (r := .error e) ho₁ hkept (.of_eq (by rw [hstore]; rfl) (by rw [hstore]; rfl))
      (fun _ hid => nomatch hid)).owned ho₁
    exact ⟨ho₂, (fun _ ha => nomatch ha), fun e' he' => ⟨hhonest' e' he', ho₂⟩⟩
  · have hadded : A.Added (sc.at_ w).world w' id ⟨A.name, v⟩ := ⟨hstore, hadds⟩
    have ho₂ : A.Owned ((sc.at_ w).after (.call (.createTemplate A.url organizationId A.name
      displayName v)) r w') := hadded.owned ho₁ hc₁ rfl (fun _ hid => nomatch hid)
    refine ⟨ho₂, fun created hcreated => ?_, fun e he => ⟨hhonest' e he, ho₂⟩⟩
    obtain ⟨versionId, hw, -⟩ := hc₁.window
    refine ⟨ho₂, ⟨versionId, hadded.window hw⟩, fun t ht => ?_, (fun hnone => nomatch hnone)⟩
    cases ht
    rw [hid created hcreated]
    exact ⟨(hadded.created id).mpr (.inl rfl), hadded.among (hc₁.settled.gone rfl)⟩

/-- The one template left gets another active version. -/
structure Activated (A : PublicationTarget σ) (w w' : Setting σ) (id v : UUID) : Prop where
  store : w'.store = w.store
  remote : A.service.Activates w.remote w'.remote id v

theorem Activated.template_cases {w w' : Setting σ} {id : UUID} (h : A.Activated w w' id v)
    {id' : UUID} {t : RemoteTemplate} (row : A.template w' id' = some t) :
    ∃ t₀, A.template w id' = some t₀ ∧ ((id' = id ∧ t.activeVersionId = v) ∨ (id' ≠ id ∧ t = t₀)) := by
  by_cases hid : id' = id
  · subst hid
    obtain ⟨t₀, ht₀, ht⟩ := h.remote.template
    cases ht.symm.trans row
    exact ⟨t₀, ht₀, .inl ⟨rfl, rfl⟩⟩
  · exact ⟨t, (h.remote.templates id' hid).symm.trans row, .inr ⟨hid, rfl⟩⟩

theorem Activated.owned {o : Op α} {r : Except WorkerError α} {w : Setting σ} {t : CoderTemplate}
    (h : A.Activated sc.world w t.id v) (ho : A.Owned sc)
    (hc : A.Chosen templateId (some t) v sc) (recorded : templateId = some t.id)
    (touches : ∀ id, (Moment.mk sc.world ⟨o, r⟩ w).touched = some id → A.Created sc.history id) :
    A.Owned (sc.after o r w) := by
  obtain ⟨versionId, hw, -⟩ := hc.window
  obtain ⟨hown, honly⟩ := hc.settled.here t rfl
  have halive : ∀ id, (A.template w id).isSome = true → (A.template sc.world id).isSome = true := by
    intro id hsome
    obtain ⟨t', ht'⟩ := Option.isSome_iff_exists.mp hsome
    obtain ⟨t₀, ht₀, -⟩ := h.template_cases ht'
    exact Option.isSome_iff_exists.mpr ⟨t₀, ht₀⟩
  have hcreated : ∀ id, A.Created (sc.after o r w).history id ↔ A.Created sc.history id := by
    intro id
    refine created_cons.trans (or_iff_right ?_)
    rintro ⟨hnone, hsome⟩
    have hbefore := halive id hsome
    rw [hnone] at hbefore
    cases hbefore
  have hmade : ∀ id, A.Made (sc.after o r w).history id ↔ A.Made sc.history id := by
    intro id
    refine made_cons.trans (or_iff_right ?_)
    rintro ⟨hnone, hsome⟩
    unfold version at hnone hsome
    rw [h.remote.versions, hnone] at hsome
    cases hsome
  have hdeployment : A.deployment w = A.deployment sc.world := by rw [deployment, h.store]; rfl
  have hassignment : A.assignment w = A.assignment sc.world := by rw [assignment, h.store]; rfl
  constructor
  · exact fun id hid => h.remote.issued id (ho.created id ((hcreated id).mp hid))
  · exact fun id hid => h.remote.issued id (ho.made id ((hmade id).mp hid))
  · exact fun a ha => ho.place a (hassignment ▸ ha)
  · exact fun d id hd hid => (hcreated id).mpr (ho.templateId d id (hdeployment ▸ hd) hid)
  · exact fun d id hd hid => (hmade id).mpr (ho.versionId d id (hdeployment ▸ hd) hid)
  · intro a ha id t' hid ht
    obtain ⟨t₀, ht₀, -⟩ := h.template_cases ht
    have heq := honly id ((hcreated id).mp hid) (Option.isSome_iff_exists.mpr ⟨t₀, ht₀⟩)
    obtain ⟨d, hd⟩ := Option.isSome_iff_exists.mp
      (hw.live (Option.isSome_iff_exists.mpr ⟨a, hassignment ▸ ha⟩))
    exact ⟨d, hdeployment ▸ hd, .inl ((hw.recorded d hd).1.trans (heq ▸ recorded))⟩
  · intro id id' hid hid' h₁ h₂
    exact ho.one id id' ((hcreated id).mp hid) ((hcreated id').mp hid') (halive id h₁) (halive id' h₂)
  · intro id t' hid ht hm
    have hforeign : ¬A.Created sc.history id := fun hc' => hid ((hcreated id).mpr hc')
    obtain ⟨t₀, ht₀, ⟨rfl, -⟩ | ⟨-, rfl⟩⟩ := h.template_cases ht
    · exact hforeign hown
    · exact ho.theirs id t' hforeign ht₀ ((hmade _).mp hm)
  · exact touchesOwn_cons.mpr ⟨touches, ho.touches⟩

theorem attempts_activate [A.service.Lawful A.url] (t : CoderTemplate) (ho : A.Owned sc)
    (hc : A.Chosen templateId (some t) v sc) (recorded : templateId = some t.id) :
    A.Attempts (request (.activateTemplateVersion A.url t.id v)) sc (fun _ sc' => A.Owned sc')
      (fun e sc' => e ≠ ownedOutside ∧ A.Owned sc') := by
  refine attempts_operation ho fun w w' r hcalm hperformed hhonest => ?_
  have ho₁ := hcalm.owned ho
  have hc₁ := stable_chosen _ _ hcalm hc
  have htouches : ∀ id, (Moment.mk w ⟨.call (.activateTemplateVersion A.url t.id v), r⟩ w').touched =
      some id → A.Created (sc.at_ w).history id := by
    intro id hid
    cases hid
    exact (hc₁.settled.here t rfl).1
  obtain ⟨hanswered, hstore⟩ := hperformed.call_cases
  have ho₂ : A.Owned ((sc.at_ w).after (.call (.activateTemplateVersion A.url t.id v)) r w') := by
    rcases TemplateService.Lawful.activateVersion _ _ _ _ _ hanswered with
      ⟨hkept, -⟩ | hactivates
    · exact (Calm.of_keeps ho₁ hkept (.of_eq (by rw [hstore]; rfl) (by rw [hstore]; rfl))
        htouches).owned ho₁
    · exact Activated.owned (t := t) ⟨hstore, hactivates⟩ ho₁ hc₁ recorded htouches
  exact ⟨ho₂, fun _ _ => ho₂,
    fun e he => ⟨fun heq => hhonest _ rfl (he.trans (congrArg Except.error heq)), ho₂⟩⟩

theorem attempts_activateVersion [A.service.Lawful A.url] (organizationId : UUID)
    (version : CoderTemplateVersion)
    (url : preparation.instanceUrl = A.url) (named : snapshot.name = A.name) (ho : A.Owned sc)
    (hc : A.Chosen templateId remote version.id sc)
    (recorded : ∀ t, remote = some t → templateId = some t.id) :
    A.Attempts (activateVersion claim A.assignmentId organizationId snapshot preparation version
        remote) sc (fun _ sc' => A.Owned sc')
      (fun e sc' => e ≠ ownedOutside ∧ A.Owned sc') := by
  cases remote with
  | none =>
      simp only [activateVersion, url, named]
      refine .bind (attempts_createTemplate organizationId snapshot.displayName ho hc) ?_
        (fun _ _ h => h)
      rintro created sc₁ ⟨ho₁, ⟨versionId, hw₁⟩, hs₁⟩
      refine (attempts_store none (some created.id) none ho₁ hw₁ hs₁ ?_ ?_ ?_).mono
        (fun _ _ h => h.1) (fun _ _ h => h)
      · intro t ht
        cases ht
        rfl
      · intro id hid
        cases hid
        exact (hs₁.here created rfl).1
      · exact fun _ h => nomatch h
  | some t =>
      simp only [activateVersion, url]
      exact attempts_activate t ho hc (recorded t rfl)

/-- The remote half of a publication recognises what belongs to the assignment,
and leaves every trace of its own recognisable. -/
theorem attempts_publishTemplate [A.service.Lawful A.url] (fuel : Nat)
    (url : preparation.instanceUrl = A.url)
    (named : snapshot.name = A.name) (ho : A.Owned sc)
    (hr : A.Ready preparation.persistedTemplateId preparation.persistedVersionId sc) :
    A.Attempts (publishTemplate claim A.assignmentId snapshot archive preparation
      (publicationHeartbeat claim) fuel) sc (fun _ sc' => A.Owned sc') A.Raises := by
  rw [publishTemplate_eq, url, named]
  refine .bind (attempts_request rfl stable_ready ho hr) ?_ (fun _ _ h => .of_ne h.2.1 h.1)
  rintro - sc₁ ⟨ho₁, hr₁⟩
  refine .bind (attempts_request rfl stable_ready ho₁ hr₁) ?_ (fun _ _ h => .of_ne h.2.1 h.1)
  rintro organizationId sc₂ ⟨ho₂, hr₂⟩
  refine .bind (attempts_managedRemoteTemplate organizationId ho₂ hr₂) ?_ (fun _ _ h => h)
  rintro ⟨remote, foundByName⟩ sc₃ ⟨ho₃, hw₃, hs₃⟩
  have hrecorded : ∀ t, remote = some t →
      ((remote.map fun t => t.id) <|> preparation.persistedTemplateId) = some t.id := by
    rintro t rfl
    rfl
  have hcreated : ∀ id, (remote.map fun t => t.id) = some id → A.Created sc₃.history id := by
    intro id hid
    obtain ⟨t, ht, rfl⟩ := Option.map_eq_some_iff.mp hid
    exact (hs₃.here t ht).1
  refine .bind (attempts_store (some organizationId) _ none ho₃ hw₃ hs₃ hrecorded hcreated
    (fun _ h => nomatch h)) ?_ (fun _ _ => .of_other)
  rintro - sc₄ ⟨ho₄, hw₄, hs₄⟩
  refine .bind (attempts_publishedVersion organizationId foundByName url ho₄ hw₄ hs₄ hrecorded) ?_
    (fun _ _ => .of_other)
  rintro version sc₅ ⟨ho₅, hc₅⟩
  refine .bind (attempts_readyVersion stable_chosen fuel version ho₅ hc₅) ?_ (fun _ _ => .of_other)
  rintro version' sc₆ ⟨ho₆, hc₆, hid⟩
  rw [← hid] at hc₆
  refine .bind (attempts_unarchiveVersion stable_chosen version' ho₆ hc₆) ?_ (fun _ _ => .of_other)
  rintro - sc₇ ⟨ho₇, hc₇⟩
  exact (attempts_activateVersion organizationId version' url named ho₇ hc₇ hrecorded).mono
    (fun _ _ h => h) (fun _ _ => .of_other)

end Activating

end PublicationTarget
end CoderManager
