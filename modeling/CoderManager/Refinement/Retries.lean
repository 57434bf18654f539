import CoderManager.Refinement.Trials

/-!
# Retries of a publication

A publication meets the template of the name, looks for a version and goes on with
it. Each part is followed from the state the attempt starts from, up to the state
in which it converges or the error it raises.
-/
namespace CoderManager
open Programs Tables

variable {σ : Type}

namespace PublicationTarget
variable {A : PublicationTarget σ} {I : ImportCourse} {claim : ExecutionClaim}
  {x x' : Trial σ} {w w' : Setting σ} {remote : Option CoderTemplate} {d : TemplateDeployment}
  {snapshot : TemplateSourceSnapshot} {archive : TemplateArchive}
  {preparation : TemplateDeploymentPreparation}

/-- The recorded template has a succeeded version as its active one. -/
def Live (A : PublicationTarget σ) (w : Setting σ) : Prop :=
  ∃ d id t v, A.deployment w = some d ∧ d.coderTemplateId = some id ∧ A.template w id = some t ∧
    A.version w t.activeVersionId = some v ∧ v.status = .succeeded

def namedTemplate (A : PublicationTarget σ) (w : Setting σ) : Option CoderTemplate :=
  (A.service.templateNamed w.remote A.name).bind (A.service.viewTemplate w.remote)

/-- The template of the name is the recorded one; or the recorded one is gone, if
there was one, and the recorded version is its active one. -/
def Acknowledged (A : PublicationTarget σ) (w : Setting σ) (d : TemplateDeployment) : Prop :=
  ∀ t, A.namedTemplate w = some t → d.coderTemplateId = some t.id ∨
    (A.recordedTemplate w d = none ∧ d.coderTemplateVersionId.isSome ∧
      t.activeVersionId = d.coderTemplateVersionId)

theorem recordedTemplate_some {t : CoderTemplate} (h : A.recordedTemplate w d = some t) :
    d.coderTemplateId = some t.id := by
  obtain ⟨id, hid, h⟩ := Option.bind_eq_some_iff.mp h
  obtain ⟨row, hrow, rfl⟩ := Option.map_eq_some_iff.mp h
  exact hid

namespace Acknowledged

theorem recognises (h : A.Acknowledged w d) :
    ∃ remote byName, recogniseTemplate d.coderTemplateId d.coderTemplateVersionId
        (A.recordedTemplate w d) (A.namedTemplate w) = pure (remote, byName) ∧
      (remote.isSome && byName) = (A.namedTemplate w).isSome := by
  cases hrecorded : A.recordedTemplate w d with
  | none =>
      cases hnamed : A.namedTemplate w with
      | none => exact ⟨none, false, rfl, rfl⟩
      | some t =>
          refine ⟨some t, true, if_pos ?_, rfl⟩
          rcases h t hnamed with hid | ⟨-, hversion⟩
          · exact .inl hid
          · exact .inr hversion
  | some t =>
      cases hnamed : A.namedTemplate w with
      | none => exact ⟨some t, false, rfl, rfl⟩
      | some t' =>
          refine ⟨some t, true, if_neg (not_not.mpr ?_), rfl⟩
          rcases h t' hnamed with hid | ⟨hnone, -⟩
          · exact Option.some.inj (hid.symm.trans (recordedTemplate_some hrecorded))
          · cases hnone.symm.trans hrecorded

end Acknowledged

/-- Any other template of the name is rejected. -/
theorem rejects_of_not_acknowledged (h : ¬A.Acknowledged w d) :
    recogniseTemplate d.coderTemplateId d.coderTemplateVersionId (A.recordedTemplate w d)
      (A.namedTemplate w) = throw ownedOutside := by
  simp only [Acknowledged, not_forall, not_or, not_and] at h
  obtain ⟨t, hnamed, hid, hversion⟩ := h
  rw [hnamed]
  cases hrecorded : A.recordedTemplate w d with
  | none =>
      refine if_neg ?_
      rintro (heq | ⟨hsome, heq⟩)
      · exact hid heq
      · exact hversion hrecorded hsome heq
  | some t' =>
      refine if_pos fun heq => hid ?_
      rw [recordedTemplate_some hrecorded, heq]

namespace Untouched

theorem recordedTemplate (h : A.Untouched w w') (d : TemplateDeployment) :
    A.recordedTemplate w' d = A.recordedTemplate w d := by
  refine congrArg d.coderTemplateId.bind (funext fun id => ?_)
  rw [TemplateService.viewTemplate, TemplateService.viewTemplate, h.keeps.templates]

theorem isSome_version (h : A.Untouched w w') (id : UUID) :
    (A.version w' id).isSome = (A.version w id).isSome := h.keeps.versions id

theorem namedTemplate (h : A.Untouched w w') : A.namedTemplate w' = A.namedTemplate w := by
  unfold PublicationTarget.namedTemplate
  rw [h.keeps.templateNamed]
  refine congrArg (Option.bind _) (funext fun id => ?_)
  rw [TemplateService.viewTemplate, TemplateService.viewTemplate, h.keeps.templates]

theorem foundVersion (h : A.Untouched w w') (d : TemplateDeployment) (commit : String)
    (revision : Nat) : A.foundVersion w' d commit revision = A.foundVersion w d commit revision := by
  unfold PublicationTarget.foundVersion
  rw [h.keeps.versionNamed]
  simp only [h.isSome_version]

end Untouched

structure Prepared (A : PublicationTarget σ) (claim : ExecutionClaim)
    (preparation : TemplateDeploymentPreparation) (d : TemplateDeployment) (x : Trial σ) : Prop where
  publishing : A.Publishing claim x.world.store
  row : A.deployment x.world = some d
  url : preparation.instanceUrl = A.url
  templateId : preparation.persistedTemplateId = d.coderTemplateId
  versionId : preparation.persistedVersionId = d.coderTemplateVersionId
  unlooked : x.looks = 0

/-- The attempt is where it was, and has not looked at an import yet. -/
structure Rests (A : PublicationTarget σ) (x x' : Trial σ) : Prop where
  store : x'.world.store = x.world.store
  untouched : A.Untouched x.world x'.world
  looks : x'.looks = x.looks

theorem Rests.trans {x₁ x₂ : Trial σ} (h : A.Rests x x₁) (h' : A.Rests x₁ x₂) : A.Rests x x₂ :=
  ⟨h'.store.trans h.store, h.untouched.trans h'.untouched, h'.looks.trans h.looks⟩

section Parts
variable {ok : Option CoderTemplate × Bool → Trial σ → Prop}
  {err : WorkerError → Trial σ → Prop}

theorem courses_rest [A.service.Lawful A.url] {α : Type} {c : Call α} {ok : α → Trial σ → Prop}
    (quiet : c.keepsTemplates = true)
    (blind : ∀ a, x.answered I (.call c) (.ok a) = some x.looks)
    (next : ∀ a x', A.Rests x x' → A.service.answers c x.world.remote (.ok a) x'.world.remote →
      ok a x') :
    A.Courses I (request c) x ok err :=
  courses_request fun a x' hstore hanswered hallowed =>
    next a x' ⟨hstore, .request quiet hanswered,
      (Option.some.inj ((blind a).symm.trans hallowed)).symm⟩ hanswered

theorem courses_persistedTemplate [A.service.Lawful A.url]
    {ok : Option CoderTemplate → Trial σ → Prop}
    (next : ∀ x', A.Rests x x' → ok (A.recordedTemplate x.world d) x') :
    A.Courses I (persistedTemplate A.url d.coderTemplateId) x ok err := by
  unfold recordedTemplate at next
  cases hid : d.coderTemplateId with
  | none =>
      rw [hid] at next
      exact next x ⟨rfl, .of_eq rfl, rfl⟩
  | some id =>
      rw [hid] at next
      refine courses_rest rfl (fun _ => rfl) fun found x' hrests hanswered => ?_
      cases TemplateService.Lawful.readTemplate _ _ _ _ hanswered
      exact next x' hrests

theorem courses_managedRemoteTemplate [A.service.Lawful A.url] (organizationId : UUID)
    (next : ∀ x', A.Rests x x' → A.Courses I (recogniseTemplate d.coderTemplateId
      d.coderTemplateVersionId (A.recordedTemplate x.world d) (A.namedTemplate x.world)) x' ok err) :
    A.Courses I (managedRemoteTemplate A.url organizationId A.name d.coderTemplateId
      d.coderTemplateVersionId) x ok err := by
  rw [managedRemoteTemplate_eq]
  refine upholds_bind.mpr (courses_persistedTemplate fun x₁ hrests₁ => upholds_bind.mpr ?_)
  refine courses_rest rfl (fun _ => rfl) fun named x₂ hrests₂ hanswered => ?_
  have hnamed : named = A.namedTemplate x.world :=
    (TemplateService.Lawful.readTemplateByName _ _ _ _ _ hanswered).trans
      hrests₁.untouched.namedTemplate
  rw [hnamed]
  exact next x₂ (hrests₁.trans hrests₂)

end Parts

/-- A version as the first look at it shows it, and the trial after that look. -/
structure Seen (A : PublicationTarget σ) (I : ImportCourse) (w : Setting σ) (versionId : UUID)
    (version : CoderTemplateVersion) (x' : Trial σ) : Prop where
  id : version.id = versionId
  untouched : A.Untouched w x'.world
  looks : x'.looks = 1
  ended : ∀ v, A.version w versionId = some v → v.status.finished = true →
    version.status = v.status
  course : if 0 < I.duration versionId then version.status.finished = false
    else version.status = I.outcome versionId
  ready : version.status = .succeeded → A.ReadyVersion versionId x'.world

/-- The version that is found or made goes to success: its import has succeeded, or
it does in time. -/
structure Promising (A : PublicationTarget σ) (I : ImportCourse) (version : CoderTemplateVersion)
    (x : Trial σ) : Prop where
  looks : x.looks = 1
  ready : version.status = .succeeded → A.ReadyVersion version.id x.world
  intime : version.status ≠ .succeeded → I.InTime version.id

section Search

theorem Seen.of_look [A.service.Lawful A.url] {α : Type} {c : Call α} {answer : α} {x₁ x₂ : Trial σ}
    {versionId : UUID}
    {version : CoderTemplateVersion} (hrests : A.Rests x x₁) (unlooked : x.looks = 0)
    (quiet : c.keepsTemplates = true)
    (answered : A.service.answers c x₁.world.remote (.ok answer) x₂.world.remote)
    (view : A.service.viewVersion x₁.world.remote versionId = some version)
    (look : x₁.look I version = some x₂.looks) : A.Seen I x.world versionId version x₂ := by
  obtain ⟨hid, v₁, hv₁, hstatus⟩ := viewVersion_some (w := x₁.world) view
  obtain ⟨hcourse, hlooks⟩ := Trial.look_eq_some.mp look
  have huntouched : A.Untouched x₁.world x₂.world := .request quiet answered
  have hnone : x₁.looks = 0 := hrests.looks.trans unlooked
  rw [Trial.Shows, hnone, hid] at hcourse
  constructor
  · exact hid
  · exact hrests.untouched.trans huntouched
  · rw [hlooks, hnone]
  · intro v hv hended
    obtain ⟨v', hv', hsame⟩ := hrests.untouched.finished versionId v hv hended
    cases hv₁.symm.trans hv'
    exact hstatus.symm.trans hsame
  · exact hcourse
  · intro hready
    obtain ⟨v₂, hv₂, hsame⟩ := huntouched.finished versionId v₁ hv₁ (by rw [hstatus, hready]; rfl)
    exact ⟨v₂, hv₂, hsame.trans (hstatus.trans hready)⟩

theorem versionNamed_none [A.service.Lawful A.url] (h : A.namedTemplate w = none) (name : String) :
    A.service.versionNamed w.remote A.name name = none := by
  by_contra hsome
  obtain ⟨id, hid⟩ := Option.ne_none_iff_exists'.mp hsome
  obtain ⟨v, -, -, hnamed, -⟩ := TemplateService.Lawful.versionNamed A.url _ _ _ _ hid
  obtain ⟨templateId, ht⟩ := Option.isSome_iff_exists.mp hnamed
  obtain ⟨t, hrow, -⟩ := TemplateService.Lawful.templateNamed A.url _ _ _ ht
  simp only [namedTemplate, ht, Option.bind_some, TemplateService.viewTemplate, hrow,
    Option.map_some] at h
  cases h

variable {ok : Option CoderTemplateVersion → Trial σ → Prop} {err : WorkerError → Trial σ → Prop}

theorem courses_versionOfName [A.service.Lawful A.url] (organizationId : UUID) {byName : Bool}
    (url : preparation.instanceUrl = A.url) (named : snapshot.name = A.name)
    (search : (remote.isSome && byName) = (A.namedTemplate x.world).isSome)
    (unlooked : x.looks = 0)
    (absent : A.service.versionNamed x.world.remote A.name
        (versionName archive.commit snapshot.systemParameterRevision) = none →
      ∀ x', A.Rests x x' → ok none x')
    (present : ∀ id version x', A.service.versionNamed x.world.remote A.name
        (versionName archive.commit snapshot.systemParameterRevision) = some id →
      x'.world.store = x.world.store → A.Seen I x.world id version x' → ok (some version) x') :
    A.Courses I (versionOfName organizationId snapshot archive preparation remote byName) x ok
      err := by
  rw [versionOfName, search, url, named]
  cases hnamed : A.namedTemplate x.world with
  | none => exact absent (versionNamed_none hnamed _) x ⟨rfl, .of_eq rfl, rfl⟩
  | some t =>
      refine courses_request fun found x' hstore hanswered hallowed => ?_
      have hfound := TemplateService.Lawful.readVersionByName _ _ _ _ _ _ hanswered
      cases hid : A.service.versionNamed x.world.remote A.name
          (versionName archive.commit snapshot.systemParameterRevision) with
      | none =>
          rw [hid] at hfound
          cases hfound
          exact absent hid x' ⟨hstore, .request rfl hanswered, (Option.some.inj hallowed).symm⟩
      | some id =>
          obtain ⟨v, hv, -⟩ := TemplateService.Lawful.versionNamed A.url _ _ _ _ hid
          have hview : A.service.viewVersion x.world.remote id = some (v.view id) :=
            congrArg (Option.map (RemoteVersion.view id)) hv
          rw [hid, Option.bind_some, hview] at hfound
          cases hfound
          exact present id (v.view id) x' hid hstore (.of_look ⟨rfl, .of_eq rfl, rfl⟩ unlooked rfl
            hanswered hview hallowed)

theorem courses_search [A.service.Lawful A.url] (organizationId : UUID) {byName : Bool}
    (url : preparation.instanceUrl = A.url) (named : snapshot.name = A.name)
    (versionId : preparation.persistedVersionId = d.coderTemplateVersionId)
    (search : (remote.isSome && byName) = (A.namedTemplate x.world).isSome)
    (unlooked : x.looks = 0)
    (absent : A.foundVersion x.world d archive.commit snapshot.systemParameterRevision = none →
      ∀ x', A.Rests x x' → ok none x')
    (present : ∀ id version x', A.foundVersion x.world d archive.commit
        snapshot.systemParameterRevision = some id → x'.world.store = x.world.store →
      A.Seen I x.world id version x' → ok (some version) x') :
    A.Courses I (do
      let named ← versionOfName organizationId snapshot archive preparation remote byName
      recoveredVersion preparation named) x ok err := by
  refine upholds_bind.mpr (courses_versionOfName organizationId url named search unlooked ?_ ?_)
  · intro hunnamed x₁ hrests
    unfold foundVersion at absent present
    rw [hunnamed] at absent present
    simp only [recoveredVersion, versionId, url]
    cases hid : d.coderTemplateVersionId with
    | none => exact absent (by rw [hid]; rfl) x₁ hrests
    | some id =>
        refine courses_request fun found x' hstore hanswered hallowed => ?_
        have hfound := TemplateService.Lawful.readVersionForRecovery _ _ _ _ hanswered
        have hsame := hrests.untouched.isSome_version id
        cases hv : A.version x₁.world id with
        | none =>
            have hview : A.service.viewVersion x₁.world.remote id = none :=
              congrArg (Option.map (RemoteVersion.view id)) hv
            rw [hview] at hfound
            cases hfound
            rw [hv] at hsame
            have hgone : A.version x.world id = none := by simpa using hsame.symm
            refine absent ?_ x' (hrests.trans ⟨hstore, .request rfl hanswered,
              (Option.some.inj hallowed).symm⟩)
            simp [hid, hgone]
        | some v =>
            have hview : A.service.viewVersion x₁.world.remote id = some (v.view id) :=
              congrArg (Option.map (RemoteVersion.view id)) hv
            rw [hview] at hfound
            cases hfound
            rw [hv] at hsame
            have hthere : (A.version x.world id).isSome = true := hsame.symm
            refine present id (v.view id) x' ?_ (hstore.trans hrests.store)
              (.of_look hrests unlooked rfl hanswered hview hallowed)
            simp [hid, hthere]
  · intro id version x₁ hnamed hstore hseen
    refine present id version x₁ ?_ hstore hseen
    unfold foundVersion
    rw [hnamed]
    rfl

end Search

theorem Stage.courses_store (hs : A.Stage claim remote x.world.store)
    (organizationId versionId : Option UUID) {ok : Unit → Trial σ → Prop}
    {err : WorkerError → Trial σ → Prop}
    (stored : ∀ s, A.Stage claim remote s → ok () (x.withStore s)) :
    A.Courses I (transact (.storeTemplateRemoteIds claim A.assignmentId organizationId none
      versionId)) x ok err := by
  obtain ⟨d, hd, hrecorded⟩ := hs.row
  refine courses_transact (hs.publishing.store_commits hd organizationId none versionId) ?_
  refine stored _ ⟨hs.publishing.modifyDeployment _ _, d.identified organizationId none versionId,
    ?_, hrecorded⟩
  rw [Store.modifyDeployment_deployments, Table.lookup_modify_self, hd]
  rfl

theorem Seen.earlier {versionId : UUID} {version : CoderTemplateVersion}
    (h : A.Seen I w' versionId version x') (untouched : A.Untouched w w') :
    A.Seen I w versionId version x' where
  id := h.id
  untouched := untouched.trans h.untouched
  looks := h.looks
  ended := by
    intro v hv hended
    obtain ⟨v', hv', hsame⟩ := untouched.finished versionId v hv hended
    exact (h.ended v' hv' (by rw [hsame]; exact hended)).trans hsame
  course := h.course
  ready := h.ready

theorem Seen.promising {versionId : UUID} {version : CoderTemplateVersion}
    (h : A.Seen I w versionId version x') (usable : A.Usable w I versionId) :
    A.Promising I version x' := by
  obtain ⟨v, hv, hstatus⟩ := usable
  constructor
  · exact h.looks
  · intro hready
    rw [h.id]
    exact h.ready hready
  · intro hunready
    rw [h.id]
    rcases hstatus with hready | ⟨-, hintime⟩
    · exact absurd ((h.ended v hv (by rw [hready]; rfl)).trans hready) hunready
    · exact hintime

theorem courses_importedVersion [A.service.Lawful A.url] (organizationId : UUID)
    (url : preparation.instanceUrl = A.url)
    (hs : A.Stage claim remote x.world.store) (unlooked : x.looks = 0) :
    A.Courses I (importedVersion claim A.assignmentId organizationId snapshot archive preparation
      remote none) x (fun version x' => A.Stage claim remote x'.world.store ∧
        A.Promising I version x') noError := by
  simp only [importedVersion, url]
  refine upholds_bind.mpr (courses_rest rfl (fun _ => rfl) fun fileId x₁ hrests _ => ?_)
  refine upholds_bind.mpr (courses_request fun version x₂ hstore hanswered hallowed => ?_)
  simp only [Trial.answered, Option.ite_none_right_eq_some] at hallowed
  obtain ⟨hintime, hlook⟩ := hallowed
  have hlooks := (Trial.look_eq_some.mp hlook).2
  have hs₂ : A.Stage claim remote x₂.world.store := hstore ▸ hrests.store ▸ hs
  refine upholds_bind.mpr (hs₂.courses_store none (some version.id) fun s hs₃ => ⟨hs₃, ?_⟩)
  constructor
  · change x₂.looks = 1
    rw [hlooks, hrests.looks, unlooked]
  · intro hready
    rcases TemplateService.Lawful.createVersion _ _ _ _ _ _ _ _ hanswered with
      ⟨-, e, he⟩ | ⟨id, v, himports, hmade⟩
    · cases he
    · cases hmade version rfl
      exact ⟨v, himports.version, hready⟩
  · exact fun _ => hintime

theorem courses_readyVersion [A.service.Lawful A.url] {version : CoderTemplateVersion} {fuel : Nat}
    (hs : A.Stage claim remote x.world.store) (hp : A.Promising I version x)
    (enough : I.patience < fuel) :
    A.Courses I (readyVersion A.url (publicationHeartbeat claim) fuel version) x
      (fun version x' => A.Stage claim remote x'.world.store ∧ A.ReadyVersion version.id x'.world)
      noError := by
  refine upholds_ite (fun hready => ⟨hs, hp.ready hready⟩) fun hunready => ?_
  have hlooks := hp.looks
  exact courses_wait fuel hs (hp.intime hunready) (by omega) (by omega)

theorem Seen.courses_readyVersion [A.service.Lawful A.url] {versionId : UUID}
    {version : CoderTemplateVersion} {fuel : Nat}
    (h : A.Seen I w versionId version x') (there : (A.version w versionId).isSome = true)
    (unusable : ¬A.Usable w I versionId) (enough : I.patience < fuel) :
    A.Courses I (readyVersion A.url (publicationHeartbeat claim) fuel version) x'
      (fun _ _ => False) anyError := by
  obtain ⟨v, hv⟩ := Option.isSome_iff_exists.mp there
  have hnot : ¬(v.status = .succeeded ∨ (v.status.finished = false ∧ I.InTime versionId)) :=
    fun h => unusable ⟨v, hv, h⟩
  obtain ⟨hunready, hlate⟩ := not_or.mp hnot
  have hlooks := h.looks
  obtain ⟨fuel, rfl⟩ : ∃ n, fuel = n + 1 := ⟨fuel - 1, by omega⟩
  cases hended : v.status.finished with
  | true =>
      obtain ⟨v', hv', hsame⟩ := h.untouched.finished versionId v hv hended
      have hstatus := h.ended v hv hended
      rw [readyVersion, if_neg (by rw [hstatus]; exact hunready), h.id]
      exact courses_wait_failed _ fuel hv' (by rw [hsame]; exact hended) (by rw [hsame]; exact hunready)
  | false =>
      have hcourse := h.course
      refine upholds_ite (fun hready => ?_) fun _ => ?_
      · rw [hready] at hcourse
        split at hcourse
        · cases hcourse
        · exact hlate ⟨hended, hcourse.symm, by omega⟩
      · rw [h.id]
        exact courses_wait_late (fuel + 1) (fun hintime => hlate ⟨hended, hintime⟩) (by omega) (by omega)

theorem courses_unarchiveVersion [A.service.Lawful A.url] (version : CoderTemplateVersion)
    (hs : A.Stage claim remote x.world.store) (hr : A.ReadyVersion version.id x.world) :
    A.Courses I (unarchiveVersion A.url version) x
      (fun _ x' => A.Stage claim remote x'.world.store ∧ A.ReadyVersion version.id x'.world)
      noError := by
  refine upholds_ite (fun _ => ?_) fun _ => ⟨hs, hr⟩
  refine courses_request fun _ x' hstore hanswered _ => ⟨?_, hr.request rfl hanswered⟩
  rw [hstore]
  exact hs

theorem courses_activateVersion [A.service.Lawful A.url] (organizationId : UUID)
    {version : CoderTemplateVersion}
    (url : preparation.instanceUrl = A.url) (named : snapshot.name = A.name)
    (hs : A.Stage claim remote x.world.store) (hr : A.ReadyVersion version.id x.world) :
    A.Courses I (activateVersion claim A.assignmentId organizationId snapshot preparation version
      remote) x (fun _ x' => A.Publishing claim x'.world.store ∧ A.Live x'.world) noError := by
  obtain ⟨d, hd, hrecorded⟩ := hs.row
  cases remote with
  | some t =>
      simp only [activateVersion, url]
      refine courses_request fun _ x' hstore hanswered _ => ?_
      obtain ⟨v, hv, hready⟩ := hr.request rfl hanswered
      rcases TemplateService.Lawful.activateVersion _ _ _ _ _ hanswered with ⟨-, e, he⟩ | hactivates
      · cases he
      · obtain ⟨t₀, -, ht⟩ := hactivates.template
        refine ⟨hstore ▸ hs.publishing, d, t.id, _, v, ?_, hrecorded t rfl, ht, hv, hready⟩
        rw [deployment, hstore]
        exact hd
  | none =>
      simp only [activateVersion, url, named]
      refine upholds_bind.mpr (courses_request fun created x' hstore hanswered _ => ?_)
      obtain ⟨v, hv, hready⟩ := hr.request rfl hanswered
      rcases TemplateService.Lawful.createTemplate _ _ _ _ _ _ _ hanswered with
        ⟨-, e, he⟩ | ⟨id, hadds, hmade⟩
      · cases he
      · have hid : created.id = id := hmade created rfl
        have hp : A.Publishing claim x'.world.store := hstore ▸ hs.publishing
        have hd' : x'.world.store.deployments.lookup A.assignmentId = some d := hstore ▸ hd
        refine courses_transact (hp.store_commits hd' none (some created.id) none) ?_
        refine ⟨hp.modifyDeployment _ _, d.identified none (some created.id) none, id, _, v, ?_,
          congrArg some hid, hadds.template, hv, hready⟩
        change (Table.modify _ _ _).lookup _ = _
        rw [Table.lookup_modify_self, hd']
        rfl

theorem courses_fromVersion [A.service.Lawful A.url] (organizationId : UUID)
    {version : CoderTemplateVersion} {fuel : Nat}
    (url : preparation.instanceUrl = A.url) (named : snapshot.name = A.name)
    (hs : A.Stage claim remote x.world.store) (hp : A.Promising I version x)
    (enough : I.patience < fuel) :
    A.Courses I (do
      let version ← readyVersion A.url (publicationHeartbeat claim) fuel version
      unarchiveVersion A.url version
      activateVersion claim A.assignmentId organizationId snapshot preparation version remote) x
      (fun _ x' => A.Publishing claim x'.world.store ∧ A.Live x'.world) noError := by
  refine .bind (courses_readyVersion hs hp enough) ?_ (fun _ _ h => h)
  rintro version' x₁ ⟨hs₁, hr₁⟩
  refine .bind (courses_unarchiveVersion version' hs₁ hr₁) ?_ (fun _ _ h => h)
  rintro - x₂ ⟨hs₂, hr₂⟩
  exact courses_activateVersion organizationId url named hs₂ hr₂

theorem foundVersion_there [A.service.Lawful A.url] {commit : String} {revision : Nat} {id : UUID}
    (h : A.foundVersion w d commit revision = some id) : (A.version w id).isSome = true := by
  unfold foundVersion at h
  cases hnamed : A.service.versionNamed w.remote A.name (versionName commit revision) with
  | some id' =>
      rw [hnamed] at h
      cases h
      obtain ⟨v, hv, -⟩ := TemplateService.Lawful.versionNamed A.url _ _ _ _ hnamed
      exact Option.isSome_iff_exists.mpr ⟨v, hv⟩
  | none =>
      rw [hnamed] at h
      exact (Option.filter_eq_some_iff.mp h).2

namespace Prepared
variable {ok : Unit → Trial σ → Prop} {err : WorkerError → Trial σ → Prop}

theorem courses_recognise [A.service.Lawful A.url] (hp : A.Prepared claim preparation d x)
    (named : snapshot.name = A.name)
    (heartbeat : Worker Unit) (fuel : Nat)
    (next : ∀ organizationId x', A.Rests x x' → A.Courses I (do
      let found ← recogniseTemplate d.coderTemplateId d.coderTemplateVersionId
        (A.recordedTemplate x.world d) (A.namedTemplate x.world)
      transact (.storeTemplateRemoteIds claim A.assignmentId (some organizationId)
        (found.1.map fun t => t.id) none)
      let version ← publishedVersion claim A.assignmentId organizationId snapshot archive preparation
        found.1 found.2
      let version ← readyVersion A.url heartbeat fuel version
      unarchiveVersion A.url version
      activateVersion claim A.assignmentId organizationId snapshot preparation version found.1) x' ok
        err) :
    A.Courses I (publishTemplate claim A.assignmentId snapshot archive preparation heartbeat fuel) x
      ok err := by
  rw [publishTemplate_eq, hp.url, named, hp.templateId, hp.versionId]
  refine upholds_bind.mpr (courses_rest rfl (fun _ => rfl) fun _ x₁ hrests₁ _ => ?_)
  refine upholds_bind.mpr (courses_rest rfl (fun _ => rfl) fun organizationId x₂ hrests₂ _ => ?_)
  refine upholds_bind.mpr (courses_managedRemoteTemplate organizationId fun x₃ hrests₃ => ?_)
  have hrests := hrests₁.trans hrests₂
  rw [hrests.untouched.recordedTemplate, hrests.untouched.namedTemplate]
  exact upholds_bind.mp (next organizationId x₃ (hrests.trans hrests₃))

/-- A publication that does not acknowledge the template of the name raises. -/
theorem rejects [A.service.Lawful A.url] (hp : A.Prepared claim preparation d x)
    (named : snapshot.name = A.name)
    (foreign : ¬A.Acknowledged x.world d) (fuel : Nat) :
    A.Courses I (publishTemplate claim A.assignmentId snapshot archive preparation
      (publicationHeartbeat claim) fuel) x (fun _ _ => False) anyError := by
  refine hp.courses_recognise named _ fuel fun organizationId x' _ => ?_
  rw [rejects_of_not_acknowledged foreign]
  exact trivial

theorem courses_found [A.service.Lawful A.url] (hp : A.Prepared claim preparation d x)
    (named : snapshot.name = A.name)
    (acknowledged : A.Acknowledged x.world d) (heartbeat : Worker Unit) (fuel : Nat)
    (absent : ∀ remote organizationId x', A.foundVersion x.world d archive.commit
        snapshot.systemParameterRevision = none →
      A.Stage claim remote x'.world.store → x'.looks = 0 → A.Courses I (do
        let version ← importedVersion claim A.assignmentId organizationId snapshot archive preparation
          remote none
        let version ← readyVersion A.url heartbeat fuel version
        unarchiveVersion A.url version
        activateVersion claim A.assignmentId organizationId snapshot preparation version remote) x' ok
          err)
    (present : ∀ remote organizationId id version x', A.foundVersion x.world d archive.commit
        snapshot.systemParameterRevision = some id →
      A.Stage claim remote x'.world.store → A.Seen I x.world id version x' → A.Courses I (do
        let version ← readyVersion A.url heartbeat fuel version
        unarchiveVersion A.url version
        activateVersion claim A.assignmentId organizationId snapshot preparation version remote) x' ok
          err) :
    A.Courses I (publishTemplate claim A.assignmentId snapshot archive preparation heartbeat fuel) x
      ok err := by
  obtain ⟨remote, byName, hrecognised, hsearch⟩ := acknowledged.recognises
  refine hp.courses_recognise named heartbeat fuel fun organizationId x₁ hrests => ?_
  rw [hrecognised]
  have hpublishing : A.Publishing claim x₁.world.store := hrests.store ▸ hp.publishing
  have hrow : x₁.world.store.deployments.lookup A.assignmentId = some d := hrests.store ▸ hp.row
  refine upholds_bind.mpr (upholds_pure.mpr (upholds_bind.mpr (courses_transact
    (hpublishing.store_commits hrow (some organizationId) (remote.map fun t => t.id) none) ?_)))
  have hs : A.Stage claim remote (x₁.world.store.modifyDeployment A.assignmentId fun d =>
      d.identified (some organizationId) (remote.map fun t => t.id) none) := by
    refine ⟨hpublishing.modifyDeployment _ _, d.identified (some organizationId)
      (remote.map fun t => t.id) none, ?_, ?_⟩
    · rw [Store.modifyDeployment_deployments, Table.lookup_modify_self, hrow]
      rfl
    · rintro t rfl
      rfl
  generalize x₁.world.store.modifyDeployment A.assignmentId (fun d =>
    d.identified (some organizationId) (remote.map fun t => t.id) none) = s at hs
  have huntouched : A.Untouched x.world (x₁.withStore s).world := hrests.untouched.trans (.of_eq rfl)
  have hunlooked : (x₁.withStore s).looks = 0 := hrests.looks.trans hp.unlooked
  rw [← huntouched.namedTemplate] at hsearch
  rw [← huntouched.foundVersion] at absent present
  rw [publishedVersion_eq]
  refine upholds_bind.mpr (upholds_bind.mpr ((upholds_bind.mp (courses_search organizationId hp.url
    named hp.versionId hsearch hunlooked ?_ ?_)).mono (fun _ _ => upholds_bind.mpr) fun _ _ h => h))
  · intro hnone x₂ hrests₂
    exact upholds_bind.mp (absent remote organizationId x₂ hnone (hrests₂.store ▸ hs)
      (hrests₂.looks.trans hunlooked))
  · intro id version x₂ hfound hstore hseen
    exact present remote organizationId id version x₂ hfound (hstore ▸ hs) (hseen.earlier huntouched)

/-- A publication that acknowledges the template, and can use what it finds, goes through. -/
theorem converges [A.service.Lawful A.url] (hp : A.Prepared claim preparation d x)
    (named : snapshot.name = A.name)
    (acknowledged : A.Acknowledged x.world d)
    (usable : ∀ id, A.foundVersion x.world d archive.commit snapshot.systemParameterRevision =
      some id → A.Usable x.world I id) {fuel : Nat} (enough : I.patience < fuel) :
    A.Courses I (publishTemplate claim A.assignmentId snapshot archive preparation
      (publicationHeartbeat claim) fuel) x
      (fun _ x' => A.Publishing claim x'.world.store ∧ A.Live x'.world) noError := by
  refine hp.courses_found named acknowledged _ fuel ?_ ?_
  · intro remote organizationId x' _ hs hunlooked
    refine .bind (courses_importedVersion organizationId hp.url hs hunlooked) ?_ (fun _ _ h => h)
    rintro version x'' ⟨hs', hpromising⟩
    exact courses_fromVersion organizationId hp.url named hs' hpromising enough
  · intro remote organizationId id version x' hfound hs hseen
    exact courses_fromVersion organizationId hp.url named hs (hseen.promising (usable id hfound)) enough

/-- A publication that finds a version it cannot use raises. -/
theorem fails [A.service.Lawful A.url] (hp : A.Prepared claim preparation d x)
    (named : snapshot.name = A.name)
    (acknowledged : A.Acknowledged x.world d) {id : UUID}
    (found : A.foundVersion x.world d archive.commit snapshot.systemParameterRevision = some id)
    (unusable : ¬A.Usable x.world I id) {fuel : Nat} (enough : I.patience < fuel) :
    A.Courses I (publishTemplate claim A.assignmentId snapshot archive preparation
      (publicationHeartbeat claim) fuel) x (fun _ _ => False) anyError := by
  refine hp.courses_found named acknowledged _ fuel ?_ ?_
  · intro remote organizationId x' hnone
    cases hnone.symm.trans found
  · intro remote organizationId id' version x' hfound _ hseen
    cases hfound.symm.trans found
    exact .bind (hseen.courses_readyVersion (foundVersion_there found) unusable enough)
      (fun _ _ h => h.elim) (fun _ _ h => h)

end Prepared

end PublicationTarget
end CoderManager
