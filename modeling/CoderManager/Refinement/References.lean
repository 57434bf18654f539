import CoderManager.Refinement.Lifecycles

/-!
# What a workspace refers to

A workspace has a member, an image, modules and a deployed template. Every
operation that edits or deletes one of them keeps the workspaces served, or
deletes them along.
-/
namespace CoderManager
open Tables Leases
namespace Store

/-- Everything a workspace refers to is there and belongs together. -/
structure Serves (s : Store) (w : Workspace) : Prop where
  owner : ∃ m, s.members.lookup w.memberId = some m ∧ m.instanceId = w.instanceId ∧
    m.action ≠ .deleting
  image : ∃ i, s.images.lookup w.imageId = some i ∧ i.templateId = w.templateId
  modules : ∃ t, s.templates.lookup w.templateId = some t ∧ ∀ m ∈ w.modules, m ∈ t.modules
  deployed : ∃ id a d, s.assignments.lookup id = some a ∧ a.templateId = w.templateId ∧
    a.instanceId = w.instanceId ∧ s.deployments.lookup id = some d ∧
    d.coderTemplateId.isSome = true

/-- A pair of a template and an instance has one assignment, a member who leaves
is not settled, and every workspace is served. -/
structure Referenced (s : Store) : Prop where
  images : ∀ id i, s.images.lookup id = some i → id < s.nextId
  leaving : ∀ id m, s.members.lookup id = some m → m.action = .deleting → m.status ≠ .success
  pairs : ∀ id id' a a', s.assignments.lookup id = some a → s.assignments.lookup id' = some a' →
    a.instanceId = a'.instanceId → a.templateId = a'.templateId → id = id'
  workspaces : ∀ id w, s.workspaces.lookup id = some w → s.Serves w

theorem Referenced.empty : Referenced Store.empty := by
  constructor <;> intros <;> contradiction

/-- Workspaces keep their references, and what a workspace may refer to stays. -/
structure Sustains (s s' : Store) : Prop where
  nextId : s.nextId ≤ s'.nextId
  images : s'.images = s.images
  members : Table.Within (fun m => (m.instanceId, m.action)) s.members s'.members
  membersStay : ∀ id m, s.members.lookup id = some m → m.action ≠ .deleting →
    ∃ m', s'.members.lookup id = some m'
  leaving : ∀ id m m', s.members.lookup id = some m → s'.members.lookup id = some m' →
    m'.action = .deleting → m'.status = .success → m.status = .success
  templates : ∀ id t, s.templates.lookup id = some t →
    ∃ t', s'.templates.lookup id = some t' ∧ t'.modules = t.modules
  assignments : Table.Within (fun a => (a.instanceId, a.templateId)) s.assignments s'.assignments
  assignmentsStay : Table.Covered s.assignments s'.assignments
  deploymentsStay : ∀ id d, s.deployments.lookup id = some d → d.coderTemplateId.isSome = true →
    ∃ d', s'.deployments.lookup id = some d' ∧ d'.coderTemplateId.isSome = true
  workspaces : Table.Within (fun w => (w.instanceId, w.templateId, w.memberId, w.imageId, w.modules))
    s.workspaces s'.workspaces

section Sustains
variable {s s' s'' : Store}

theorem Serves.sustained {w w' : Workspace} (h : s.Serves w) (hs : Sustains s s')
    (same : (w'.instanceId, w'.templateId, w'.memberId, w'.imageId, w'.modules) =
      (w.instanceId, w.templateId, w.memberId, w.imageId, w.modules)) : s'.Serves w' := by
  simp only [Prod.mk.injEq] at same
  obtain ⟨hinst, htemp, hmem, himg, hmod⟩ := same
  constructor
  · obtain ⟨m, hm, hi, ha⟩ := h.owner
    obtain ⟨m', hm'⟩ := hs.membersStay _ m hm ha
    obtain ⟨m₀, hm₀, hcols⟩ := hs.members _ m' hm'
    obtain rfl : m = m₀ := Option.some.inj (hm.symm.trans hm₀)
    simp only [Prod.mk.injEq] at hcols
    exact ⟨m', hmem ▸ hm', by rw [hcols.1, hi, hinst], by rwa [hcols.2]⟩
  · rw [himg, htemp, hs.images]
    exact h.image
  · obtain ⟨t, ht, hsub⟩ := h.modules
    obtain ⟨t', ht', hsame⟩ := hs.templates _ t ht
    rw [htemp, hmod]
    exact ⟨t', ht', hsame ▸ hsub⟩
  · obtain ⟨id, a, d, ha, hat, hai, hd, hset⟩ := h.deployed
    obtain ⟨a', ha'⟩ := hs.assignmentsStay _ a ha
    obtain ⟨a₀, ha₀, hcols⟩ := hs.assignments _ a' ha'
    obtain rfl : a = a₀ := Option.some.inj (ha.symm.trans ha₀)
    simp only [Prod.mk.injEq] at hcols
    obtain ⟨d', hd', hset'⟩ := hs.deploymentsStay _ d hd hset
    exact ⟨id, a', d', ha', by rw [hcols.2, hat, htemp], by rw [hcols.1, hai, hinst], hd', hset'⟩

theorem Sustains.referenced (hs : Sustains s s') (h : Referenced s) : Referenced s' where
  images := fun id i hi => Nat.lt_of_lt_of_le (h.images id i (hs.images ▸ hi)) hs.nextId
  leaving := by
    intro id m' hm' hact hst
    obtain ⟨m, hm, hcols⟩ := hs.members id m' hm'
    simp only [Prod.mk.injEq] at hcols
    exact h.leaving id m hm (hcols.2 ▸ hact) (hs.leaving id m m' hm hm' hact hst)
  pairs := by
    intro id id' a₁ a₁' ha ha' hi ht
    obtain ⟨a, ha, hcols⟩ := hs.assignments id a₁ ha
    obtain ⟨a', ha', hcols'⟩ := hs.assignments id' a₁' ha'
    simp only [Prod.mk.injEq] at hcols hcols'
    exact h.pairs id id' a a' ha ha' (by rw [← hcols.1, ← hcols'.1, hi])
      (by rw [← hcols.2, ← hcols'.2, ht])
  workspaces := by
    intro id w' hw'
    obtain ⟨w, hw, same⟩ := hs.workspaces id w' hw'
    exact (h.workspaces id w hw).sustained hs same

theorem Sustains.refl (s : Store) : Sustains s s :=
  ⟨Nat.le_refl _, rfl, .refl _ _, fun _ m hm _ => ⟨m, hm⟩,
    fun _ _ _ hm hm' _ hst => Option.some.inj (hm.symm.trans hm') ▸ hst, fun _ t ht => ⟨t, ht, rfl⟩,
    .refl _ _, .refl _, fun _ d hd hset => ⟨d, hd, hset⟩, .refl _ _⟩

theorem Sustains.trans (h : Sustains s s') (h' : Sustains s' s'') : Sustains s s'' where
  nextId := Nat.le_trans h.nextId h'.nextId
  images := h'.images.trans h.images
  members := h.members.trans h'.members
  membersStay := by
    intro id m hm hact
    obtain ⟨m', hm'⟩ := h.membersStay id m hm hact
    obtain ⟨m₀, hm₀, hcols⟩ := h.members id m' hm'
    obtain rfl : m = m₀ := Option.some.inj (hm.symm.trans hm₀)
    exact h'.membersStay id m' hm' (by rwa [(Prod.mk.inj hcols).2])
  leaving := by
    intro id m m'' hm hm'' hact hst
    obtain ⟨m', hm', hcols⟩ := h'.members id m'' hm''
    exact h.leaving id m m' hm hm' ((Prod.mk.inj hcols).2 ▸ hact)
      (h'.leaving id m' m'' hm' hm'' hact hst)
  templates := by
    intro id t ht
    obtain ⟨t', ht', hsame⟩ := h.templates id t ht
    obtain ⟨t'', ht'', hsame'⟩ := h'.templates id t' ht'
    exact ⟨t'', ht'', hsame'.trans hsame⟩
  assignments := h.assignments.trans h'.assignments
  assignmentsStay := h.assignmentsStay.trans h'.assignmentsStay
  deploymentsStay := by
    intro id d hd hset
    obtain ⟨d', hd', hset'⟩ := h.deploymentsStay id d hd hset
    exact h'.deploymentsStay id d' hd' hset'
  workspaces := h.workspaces.trans h'.workspaces

theorem Sustains.of_eq (nextId : s.nextId ≤ s'.nextId) (images : s'.images = s.images)
    (members : s'.members = s.members) (templates : s'.templates = s.templates)
    (assignments : s'.assignments = s.assignments) (deployments : s'.deployments = s.deployments)
    (workspaces : s'.workspaces = s.workspaces) : Sustains s s' := by
  have h := Sustains.refl s
  exact ⟨nextId, images, members ▸ h.members, members ▸ h.membersStay, members ▸ h.leaving,
    templates ▸ h.templates, assignments ▸ h.assignments, assignments ▸ h.assignmentsStay,
    deployments ▸ h.deploymentsStay, workspaces ▸ h.workspaces⟩

theorem sustains_templates {id : UUID} {f : Template → Template}
    (same : ∀ t, (f t).modules = t.modules) :
    Sustains s { s with templates := s.templates.modify id f } := by
  refine { Sustains.refl s with templates := fun id' t ht => ?_ }
  by_cases hid : id' = id
  · exact ⟨f t, by simp [hid, hid ▸ ht], same t⟩
  · exact ⟨t, by simpa [Table.lookup_modify, hid] using ht, rfl⟩

theorem sustains_bumpSystemParameterRevision (id : UUID) :
    Sustains s (s.bumpSystemParameterRevision id) := sustains_templates fun _ => rfl

theorem sustains_members {members : Table UUID Member}
    (columns : Table.Within (fun m => (m.instanceId, m.action)) s.members members)
    (stay : ∀ id m, s.members.lookup id = some m → m.action ≠ .deleting →
      ∃ m', members.lookup id = some m')
    (leaving : ∀ id m m', s.members.lookup id = some m → members.lookup id = some m' →
      m'.action = .deleting → m'.status = .success → m.status = .success) :
    Sustains s { s with members } :=
  { Sustains.refl s with members := columns, membersStay := stay, leaving }

theorem sustains_updateMembers {p : UUID → Member → Bool} {status : Status}
    (unsettled : status ≠ .success) :
    Sustains s { s with members := s.members.updateWhere p fun m => { m with status } } := by
  refine sustains_members (.updateWhere fun _ => rfl) (fun id m hm _ => ?_) ?_
  · exact ⟨_, Table.lookup_updateWhere_some.mpr ⟨m, hm, rfl⟩⟩
  · intro id m m' hm hm' hact hst
    obtain ⟨v, hv, rfl⟩ := Table.lookup_updateWhere_some.mp hm'
    obtain rfl : m = v := Option.some.inj (hm.symm.trans hv)
    split at hst
    · exact absurd hst unsettled
    · exact hst

theorem sustains_assignments {id : UUID} {f : TemplateAssignment → TemplateAssignment}
    (same : ∀ a, ((f a).instanceId, (f a).templateId) = (a.instanceId, a.templateId)) :
    Sustains s { s with assignments := s.assignments.modify id f } :=
  { Sustains.refl s with assignments := .modify same, assignmentsStay := .modify }

theorem sustains_workspaces {workspaces : Table UUID Workspace}
    (h : Table.Within (fun w => (w.instanceId, w.templateId, w.memberId, w.imageId, w.modules))
      s.workspaces workspaces) : Sustains s { s with workspaces } :=
  { Sustains.refl s with workspaces := h }

theorem sustains_deployments {deployments : Table UUID TemplateDeployment}
    (h : ∀ id d, s.deployments.lookup id = some d → d.coderTemplateId.isSome = true →
      ∃ d', deployments.lookup id = some d' ∧ d'.coderTemplateId.isSome = true) :
    Sustains s { s with deployments } := { Sustains.refl s with deploymentsStay := h }

theorem sustains_modifyJob (jobId : UUID) (g : JobExecution → JobExecution) :
    Sustains s (s.modifyJob jobId g) := .of_eq (Nat.le_refl _) rfl rfl rfl rfl rfl rfl

theorem sustains_modifyLifecycle (type : ResourceType) (id : UUID) (f : Lifecycle → Lifecycle) :
    Sustains s (s.modifyLifecycle type id f) := by
  cases type with
  | «instance» => exact .of_eq (Nat.le_refl _) rfl rfl rfl rfl rfl rfl
  | template => exact sustains_templates fun _ => rfl
  | templateAssignment => exact sustains_assignments fun _ => rfl
  | workspace => exact sustains_workspaces (.modify fun _ => rfl)

theorem sustains_modifyResource (job : JobExecution) (f : Lifecycle → Lifecycle) :
    Sustains s (s.modifyResource job f) := by
  unfold modifyResource
  split
  · exact sustains_modifyLifecycle _ _ _
  · exact .refl s

theorem sustains_put (jobId : UUID) (g : JobExecution → JobExecution) (job : JobExecution)
    (f : Lifecycle → Lifecycle) : Sustains s ((s.modifyJob jobId g).modifyResource job f) :=
  (sustains_modifyJob jobId g).trans (sustains_modifyResource job f)

theorem sustains_stageJob (name : JobName) (action : Action) (type : ResourceType) (id : UUID)
    (step : StepName) : Sustains s (s.stageJob name action type id step).2 := by
  have h : Sustains s (s.addJobExecution name step.task (some type) (some id) step).2 :=
    .of_eq (Nat.le_succ _) rfl rfl rfl rfl rfl rfl
  have h' := h.trans (sustains_modifyLifecycle type id fun _ =>
    { action, status := .pending, jobId := some s.nextId, step := some step })
  exact h'

theorem sustains_requestInstanceUpdate (id : UUID) (i : Instance) :
    Sustains s (s.requestInstanceUpdate id i) := by
  unfold requestInstanceUpdate
  split
  · exact .refl s
  · exact sustains_stageJob _ _ _ _ _

theorem sustains_discardCurrentJob (id : UUID) : Sustains s (s.discardCurrentJob id) := by
  rcases s.discardCurrentJob_cases id with ⟨h, -⟩ | ⟨t, jobId, -, -, h⟩ <;> rw [h]
  · exact .refl s
  · have hjobs : Sustains s { s with jobs := s.jobs.erase jobId } :=
      .of_eq (Nat.le_refl _) rfl rfl rfl rfl rfl rfl
    exact hjobs.trans (sustains_templates fun _ => rfl)

theorem sustains_deleteResource {job : JobExecution}
    (type : ∀ type, job.resourceType = some type → type = .workspace) :
    Sustains s (s.deleteResource job) := by
  unfold deleteResource
  split
  · rename_i t id htype hid
    obtain rfl := type t htype
    exact sustains_workspaces .erase
  · exact .refl s

theorem sustains_finalizeMembers (id : UUID) (memberIds : List UUID) :
    Sustains s (s.finalizeMembers id memberIds) where
  nextId := Nat.le_refl _
  images := rfl
  members := .trans .deleteWhere (.updateWhere fun _ => rfl)
  membersStay := by
    intro memberId m hm hact
    have hkept : (s.members.deleteWhere fun id' m => memberIds.contains id' && m.instanceId == id &&
        m.status == .running && m.action == .deleting).lookup memberId = some m :=
      Table.lookup_deleteWhere_some.mpr ⟨hm, by simp [hact]⟩
    exact ⟨_, Table.lookup_updateWhere_some.mpr ⟨m, hkept, rfl⟩⟩
  leaving := by
    intro memberId m m' hm hm' hact hst
    obtain ⟨v, hv, rfl⟩ := Table.lookup_updateWhere_some.mp hm'
    obtain ⟨hv, hfree⟩ := Table.lookup_deleteWhere_some.mp hv
    obtain rfl : m = v := Option.some.inj (hm.symm.trans hv)
    -- A finished member who leaves was deleted.
    split at hst
    · rename_i hfin
      rw [if_pos hfin] at hact
      have hact' : m.action = .deleting := hact
      simp only [hfin, Bool.true_and, beq_eq_false_iff_ne] at hfree
      exact absurd hact' hfree
    · exact hst
  templates := fun _ t ht => ⟨t, ht, rfl⟩
  assignments := .refl _ _
  assignmentsStay := .refl _
  deploymentsStay := fun _ d hd hset => ⟨d, hd, hset⟩
  workspaces := .deleteWhere

end Sustains

section Creations
variable {s : Store}

theorem Referenced.of_eq {s' : Store} (h : Referenced s) (nextId : s.nextId ≤ s'.nextId)
    (images : s'.images = s.images) (members : s'.members = s.members)
    (templates : s'.templates = s.templates) (assignments : s'.assignments = s.assignments)
    (deployments : s'.deployments = s.deployments) (workspaces : s'.workspaces = s.workspaces) :
    Referenced s' :=
  (Sustains.of_eq nextId images members templates assignments deployments workspaces).referenced h

theorem Serves.mono {s' : Store} {w : Workspace} (h : s.Serves w)
    (members : ∀ id m, s.members.lookup id = some m → m.action ≠ .deleting →
      id = w.memberId → ∃ m', s'.members.lookup id = some m' ∧ m'.instanceId = m.instanceId ∧
        m'.action ≠ .deleting)
    (images : ∀ id i, s.images.lookup id = some i → id = w.imageId → s'.images.lookup id = some i)
    (templates : ∀ id t, s.templates.lookup id = some t → id = w.templateId →
      ∃ t', s'.templates.lookup id = some t' ∧ ∀ m ∈ w.modules, m ∈ t.modules → m ∈ t'.modules)
    (assignments : ∀ id a, s.assignments.lookup id = some a → s'.assignments.lookup id = some a)
    (deployments : s'.deployments = s.deployments) : s'.Serves w := by
  constructor
  · obtain ⟨m, hm, hi, ha⟩ := h.owner
    obtain ⟨m', hm', hi', ha'⟩ := members _ m hm ha rfl
    exact ⟨m', hm', hi'.trans hi, ha'⟩
  · obtain ⟨i, hi, ht⟩ := h.image
    exact ⟨i, images _ i hi rfl, ht⟩
  · obtain ⟨t, ht, hsub⟩ := h.modules
    obtain ⟨t', ht', hsub'⟩ := templates _ t ht rfl
    exact ⟨t', ht', fun m hm => hsub' m hm (hsub m hm)⟩
  · obtain ⟨id, a, d, ha, hat, hai, hd, hset⟩ := h.deployed
    exact ⟨id, a, d, assignments id a ha, hat, hai, deployments ▸ hd, hset⟩

theorem Referenced.insertMember (h : Referenced s) (hg : Grounded s) {m : Member}
    (pending : m.status = .pending) :
    Referenced { s with nextId := s.nextId + 1, members := s.members.insert s.nextId m } where
  images := fun id i hi => Nat.lt_succ_of_lt (h.images id i hi)
  leaving := by
    intro id m' hm' _
    rw [Table.lookup_insert] at hm'
    split at hm'
    · cases hm'
      rw [pending]
      decide
    · exact h.leaving id m' hm' ‹_›
  pairs := h.pairs
  workspaces := by
    intro id w hw
    refine (h.workspaces id w hw).mono (fun id' m' hm' hact _ => ⟨m', ?_, rfl, hact⟩)
      (fun _ _ hi _ => hi) (fun _ t ht _ => ⟨t, ht, fun _ _ h => h⟩) (fun _ _ ha => ha) rfl
    have hne : id' ≠ s.nextId := Nat.ne_of_lt (hg.members id' m' hm').1
    simpa [Table.lookup_insert, hne] using hm'

theorem Referenced.rewriteMember (h : Referenced s) {id : UUID} {f : Member → Member}
    (same : ∀ m, (f m).instanceId = m.instanceId) (unsettled : ∀ m, (f m).status = .pending)
    (free : (∃ wid w, s.workspaces.lookup wid = some w ∧ w.memberId = id) →
      ∀ m, (f m).action ≠ .deleting) :
    Referenced { s with members := s.members.modify id f } where
  images := h.images
  leaving := by
    intro id' m' hm' _
    rcases Table.lookup_modify_cases hm' with ⟨rfl, m, -, rfl⟩ | ⟨-, hm⟩
    · rw [unsettled]
      decide
    · exact h.leaving id' m' hm ‹_›
  pairs := h.pairs
  workspaces := by
    intro wid w hw
    refine (h.workspaces wid w hw).mono (fun id' m' hm' hact hid => ?_) (fun _ _ hi _ => hi)
      (fun _ t ht _ => ⟨t, ht, fun _ _ h => h⟩) (fun _ _ ha => ha) rfl
    by_cases hsame : id' = id
    · subst hsame
      exact ⟨f m', by simp [hm'], same m', free ⟨wid, w, hw, hid.symm⟩ m'⟩
    · exact ⟨m', by simpa [Table.lookup_modify_ne, hsame] using hm', rfl, hact⟩

theorem Referenced.insertTemplate (h : Referenced s) (hg : Grounded s) (t : Template) :
    Referenced { s with nextId := s.nextId + 1, templates := s.templates.insert s.nextId t } where
  images := fun id i hi => Nat.lt_succ_of_lt (h.images id i hi)
  leaving := h.leaving
  pairs := h.pairs
  workspaces := by
    intro wid w hw
    refine (h.workspaces wid w hw).mono (fun _ m hm hact _ => ⟨m, hm, rfl, hact⟩)
      (fun _ _ hi _ => hi) (fun id' t' ht' _ => ⟨t', ?_, fun _ _ h => h⟩) (fun _ _ ha => ha) rfl
    have hne : id' ≠ s.nextId := Nat.ne_of_lt (hg.templates id' t' ht')
    simpa [Table.lookup_insert, hne] using ht'

theorem Referenced.rewriteTemplate (h : Referenced s) {id : UUID} {f : Template → Template}
    {modules : List String} (edited : ∀ t, (f t).modules = modules)
    (compatible : ∀ wid w, s.workspaces.lookup wid = some w → w.templateId = id →
      ∀ m ∈ w.modules, m ∈ modules) :
    Referenced { s with templates := s.templates.modify id f } where
  images := h.images
  leaving := h.leaving
  pairs := h.pairs
  workspaces := by
    intro wid w hw
    refine (h.workspaces wid w hw).mono (fun _ m hm hact _ => ⟨m, hm, rfl, hact⟩)
      (fun _ _ hi _ => hi) (fun id' t' ht' hid => ?_) (fun _ _ ha => ha) rfl
    by_cases hsame : id' = id
    · subst hsame
      refine ⟨f t', by simp [ht'], fun m hm _ => ?_⟩
      rw [edited]
      exact compatible wid w hw hid.symm m hm
    · exact ⟨t', by simpa [Table.lookup_modify_ne, hsame] using ht', fun _ _ h => h⟩

theorem Referenced.eraseTemplate (h : Referenced s) (id : UUID) {images : Table UUID TemplateImage}
    (unused : ∀ wid w, s.workspaces.lookup wid = some w → w.templateId ≠ id)
    (kept : images = s.images.deleteWhere fun _ i => i.templateId == id) :
    Referenced { s with templates := s.templates.erase id, images } where
  images := by
    intro id' i hi
    rw [kept] at hi
    exact h.images id' i (Table.lookup_deleteWhere_some.mp hi).1
  leaving := h.leaving
  pairs := h.pairs
  workspaces := by
    intro wid w hw
    obtain ⟨i, hi, hit⟩ := (h.workspaces wid w hw).image
    refine (h.workspaces wid w hw).mono (fun _ m hm hact _ => ⟨m, hm, rfl, hact⟩)
      (fun id' i' hi' hid => ?_) (fun id' t' ht' hid => ⟨t', ?_, fun _ _ h => h⟩) (fun _ _ ha => ha)
      rfl
    · subst hid kept
      obtain rfl : i' = i := Option.some.inj (hi'.symm.trans hi)
      exact Table.lookup_deleteWhere_some.mpr ⟨hi', by simpa [hit] using unused wid w hw⟩
    · exact Table.lookup_erase_some.mpr ⟨hid ▸ unused wid w hw, ht'⟩

theorem Referenced.insertImage (h : Referenced s) (image : TemplateImage) :
    Referenced { s with nextId := s.nextId + 1, images := s.images.insert s.nextId image } where
  images := by
    intro id i hi
    rw [Table.lookup_insert] at hi
    split at hi
    · rename_i hid
      exact hid ▸ Nat.lt_succ_self _
    · exact Nat.lt_succ_of_lt (h.images id i hi)
  leaving := h.leaving
  pairs := h.pairs
  workspaces := by
    intro wid w hw
    refine (h.workspaces wid w hw).mono (fun _ m hm hact _ => ⟨m, hm, rfl, hact⟩)
      (fun id' i' hi' _ => ?_) (fun _ t ht _ => ⟨t, ht, fun _ _ h => h⟩) (fun _ _ ha => ha) rfl
    have hne : id' ≠ s.nextId := Nat.ne_of_lt (h.images id' i' hi')
    simpa [Table.lookup_insert, hne] using hi'

theorem Referenced.eraseImage (h : Referenced s) {id : UUID}
    (unused : ∀ wid w, s.workspaces.lookup wid = some w → w.imageId ≠ id) :
    Referenced { s with images := s.images.erase id } where
  images := fun id' i hi => h.images id' i (Table.lookup_erase_some.mp hi).2
  leaving := h.leaving
  pairs := h.pairs
  workspaces := by
    intro wid w hw
    refine (h.workspaces wid w hw).mono (fun _ m hm hact _ => ⟨m, hm, rfl, hact⟩)
      (fun id' i' hi' hid => ?_) (fun _ t ht _ => ⟨t, ht, fun _ _ h => h⟩) (fun _ _ ha => ha) rfl
    exact Table.lookup_erase_some.mpr ⟨hid ▸ unused wid w hw, hi'⟩

theorem Referenced.insertAssignment (h : Referenced s) (hg : Grounded s) {a : TemplateAssignment}
    (absent : ∀ id a', s.assignments.lookup id = some a' →
      ¬(a'.instanceId = a.instanceId ∧ a'.templateId = a.templateId)) :
    Referenced { s with
      nextId := s.nextId + 1, assignments := s.assignments.insert s.nextId a } where
  images := fun id i hi => Nat.lt_succ_of_lt (h.images id i hi)
  leaving := h.leaving
  pairs := by
    intro id id' a₁ a₂ h₁ h₂ hi ht
    rw [Table.lookup_insert] at h₁ h₂
    split at h₁ <;> split at h₂
    · simp_all
    · cases h₁
      exact absurd ⟨hi.symm, ht.symm⟩ (absent id' a₂ h₂)
    · cases h₂
      exact absurd ⟨hi, ht⟩ (absent id a₁ h₁)
    · exact h.pairs id id' a₁ a₂ h₁ h₂ hi ht
  workspaces := by
    intro wid w hw
    refine (h.workspaces wid w hw).mono (fun _ m hm hact _ => ⟨m, hm, rfl, hact⟩)
      (fun _ _ hi _ => hi) (fun _ t ht _ => ⟨t, ht, fun _ _ h => h⟩) (fun id' a' ha' => ?_) rfl
    have hne : id' ≠ s.nextId := Nat.ne_of_lt (hg.assignments id' a' ha').1
    simpa [Table.lookup_insert, hne] using ha'

theorem Referenced.putWorkspaces (h : Referenced s) {workspaces : Table UUID Workspace}
    (served : ∀ id w, workspaces.lookup id = some w → s.Serves w) :
    Referenced { s with workspaces } where
  images := h.images
  leaving := h.leaving
  pairs := h.pairs
  workspaces := fun id w hw => by
    obtain ⟨h₁, h₂, h₃, h₄⟩ := served id w hw
    exact ⟨h₁, h₂, h₃, h₄⟩

theorem Deployed.served {templateId instanceId : UUID} (h : s.Deployed templateId instanceId) :
    ∃ id a d, s.assignments.lookup id = some a ∧ a.templateId = templateId ∧
      a.instanceId = instanceId ∧ s.deployments.lookup id = some d ∧
      d.coderTemplateId.isSome = true := by
  obtain ⟨id, a, t, d, ha, hat, hai, -, -, -, -, hd, hset⟩ := h
  exact ⟨id, a, d, ha, hat, hai, hd, hset⟩

end Creations

end Store

open Store in
theorem Accepted.referenced {s s' : Store} {r : Request} (h : Accepted s r s') (hg : Grounded s)
    (hs : Referenced s) : Referenced s' := by
  cases h with
  | createInstance => exact hs.of_eq (Nat.le_add_right _ _) rfl rfl rfl rfl rfl rfl
  | requestInstanceDeletion | requestStart | requestStop | requestAssignmentDeletion
  | requestWorkspaceDeletion => exact (sustains_stageJob _ _ _ _ _).referenced hs
  | requestSync _ retried =>
      subst retried
      exact (sustains_stageJob _ _ _ _ _).referenced
        ((sustains_updateMembers (by decide)).referenced hs)
  | createKubernetesProvider =>
      exact (sustains_stageJob _ _ _ _ _).referenced
        (hs.of_eq (Nat.le_refl _) rfl rfl rfl rfl rfl rfl)
  | createDatabase | createUserParameter | requestDatabaseSync =>
      exact hs.of_eq (Nat.le_succ _) rfl rfl rfl rfl rfl rfl
  | updateDatabase | deleteDatabase | updateParameter | deleteUserParameter =>
      exact hs.of_eq (Nat.le_refl _) rfl rfl rfl rfl rfl rfl
  | createMember _ _ added =>
      subst added
      exact (sustains_requestInstanceUpdate _ _).referenced (hs.insertMember hg rfl)
  | updateMemberRole _ _ _ _ changed =>
      subst changed
      refine (sustains_requestInstanceUpdate _ _).referenced
        (hs.rewriteMember (fun _ => rfl) (fun _ => rfl) fun _ _ => ?_)
      exact fun h => nomatch h
  | keepMemberRole | keepTemplate | keepAssignment | keepAssignmentDeletion | keepWorkspace => exact hs
  | requestMemberDeletion _ _ _ _ unused changed =>
      subst changed
      refine (sustains_requestInstanceUpdate _ _).referenced
        (hs.rewriteMember (fun _ => rfl) (fun _ => rfl) ?_)
      rintro ⟨wid, w, hw, hm⟩
      exact absurd hm (unused wid w hw)
  | createTemplate => exact hs.insertTemplate hg _
  | @updateTemplate id payload t _ _ compatible =>
      exact ((sustains_discardCurrentJob id).referenced hs).rewriteTemplate (fun _ => rfl)
        (by simpa using compatible)
  | @deleteTemplate id _ _ _ _ _ _ _ unused imagesKept =>
      have h₁ := ((sustains_discardCurrentJob id).referenced hs).eraseTemplate id
        (by simpa using unused) (by simpa using imagesKept)
      exact h₁.of_eq (Nat.le_refl _) rfl rfl rfl rfl rfl rfl
  | requestTemplateSync =>
      exact (sustains_stageJob _ _ _ _ _).referenced ((sustains_discardCurrentJob _).referenced hs)
  | createImage added =>
      subst added
      exact hs.insertImage _
  | deleteImage unused removed =>
      subst removed
      exact hs.eraseImage unused
  | createSystemParameter =>
      exact (sustains_bumpSystemParameterRevision _).referenced
        (hs.of_eq (Nat.le_succ _) rfl rfl rfl rfl rfl rfl)
  | updateSystemValue =>
      exact (sustains_bumpSystemParameterRevision _).referenced
        (hs.of_eq (Nat.le_refl _) rfl rfl rfl rfl rfl rfl)
  | @deleteSystemParameter id =>
      have h₁ := (sustains_bumpSystemParameterRevision id).referenced hs
      exact h₁.of_eq (Nat.le_refl _) rfl rfl rfl rfl rfl rfl
  | @putAssignment id templateId _ absent =>
      refine Referenced.of_eq (hs.insertAssignment hg (a := {
          action := .creating, status := .pending, jobId := some (s.nextId + 1)
          step := some .templateAssignmentCreateStep01, templateId, instanceId := id }) ?_)
        (Nat.le_succ _) rfl rfl rfl rfl rfl rfl
      rintro aid a ha ⟨hi, ht⟩
      have hno := Table.find?_eq_none.mp absent aid a ha
      simp only at hi ht
      simp [hi, ht] at hno
  | @createWorkspace id templateId memberId payload i m t parameters _ _ source owner own joined
      deployed image modules =>
      have hact : m.action ≠ .deleting := fun h => hs.leaving _ m owner h joined
      have hput : Referenced { s with workspaces := s.workspaces.insert s.nextId {
          action := .creating, status := .pending, jobId := some (s.nextId + 1)
          step := some .workspaceCreateStep01, name := payload.name, instanceId := id, templateId
          memberId, imageId := payload.imageId, modules := payload.modules, parameters
          parametersRevision := 0, appliedParametersRevision := none, coderWorkspaceId := none
          coderWorkspaceBuildId := none } } := hs.putWorkspaces ?_
      · exact hput.of_eq (Nat.le_add_right _ 2) rfl rfl rfl rfl rfl rfl
      intro wid w hw
      rw [Table.lookup_insert] at hw
      split at hw
      · cases hw
        exact ⟨⟨m, owner, own, hact⟩, image, ⟨t, source, modules⟩, deployed.served⟩
      · exact hs.workspaces wid w hw
  | @updateWorkspace id payload w i t _ f row _ _ _ changed same deployed source image modules
      edited =>
      subst changed
      refine (sustains_stageJob _ _ _ _ _).referenced (hs.putWorkspaces fun wid w' hw' => ?_)
      rcases Table.lookup_modify_cases hw' with ⟨rfl, w₀, hw₀, rfl⟩ | ⟨-, hw'⟩
      · obtain rfl : w = w₀ := Option.some.inj (row.symm.trans hw₀)
        obtain ⟨-, hinst, htemp, hmem, -⟩ := same w
        obtain ⟨himg, hmod⟩ := edited w
        have hserved := hs.workspaces wid w row
        constructor
        · rw [hmem, hinst]
          exact hserved.owner
        · rw [himg, htemp]
          exact image
        · rw [htemp, hmod]
          exact ⟨t, source, modules⟩
        · rw [htemp, hinst]
          exact deployed.served
      · exact hs.workspaces wid w' hw'

open Store in
theorem Mutated.sustains {s s' : Store} {job : JobExecution} {m : Mutation}
    (h : Mutated s job m s') : Sustains s s' := by
  cases h with
  | none | keepWorkspace => exact .refl s
  | storeApplicationName | promotePassword | markStopped =>
      exact .of_eq (Nat.le_refl _) rfl rfl rfl rfl rfl rfl
  | markCreated => exact sustains_modifyLifecycle _ _ _
  | failMembers | deferMembers => exact sustains_updateMembers (by decide)
  | convergeWorkspace _ _ same =>
      refine sustains_workspaces (.modify fun w => ?_)
      obtain ⟨-, h₁, h₂, h₃, h₄, h₅⟩ := same w
      rw [h₁, h₂, h₃, h₄, h₅]

namespace Store
variable {s : Store}

theorem lockOwnedTemplateTarget_ok {c : ExecutionClaim} {assignmentId : UUID}
    {expected : Option UUID} {target : OwnedTemplateTarget}
    (h : s.lockOwnedTemplateTarget c assignmentId expected = .ok target) :
    ∃ job a i t, s.jobs.lookup c.jobId = some job ∧ jobMatchesClaim job c = true ∧
      s.assignments.lookup assignmentId = some a ∧ s.instances.lookup a.instanceId = some i ∧
      s.templates.lookup a.templateId = some t ∧
      jobOwnsSyncResource c.jobId job a.templateId t assignmentId a = true ∧
      (∀ id, expected = some id → id = a.templateId) ∧
      target = { instanceId := a.instanceId, inst := i, templateId := a.templateId, template := t
                 assignment := a, deployment := s.deployments.lookup assignmentId } := by
  simp only [lockOwnedTemplateTarget, bind_eq_ok, found_eq_ok] at h
  obtain ⟨job, hjob, h⟩ := h
  split at h
  · cases h
  rename_i hmatch
  obtain ⟨a, ha, h⟩ := bind_eq_ok.mp h
  split at h
  · cases h
  rename_i hexp
  obtain ⟨i, hi, h⟩ := bind_eq_ok.mp h
  obtain ⟨t, ht, h⟩ := bind_eq_ok.mp h
  split at h
  · cases h
  rename_i howns
  cases h
  rw [found_eq_ok] at ha hi ht
  refine ⟨job, a, i, t, hjob, by simpa using hmatch, ha, hi, ht, by simpa using howns, ?_, rfl⟩
  rintro id rfl
  simpa using hexp

/-- The last step of an instance deletion takes the workspaces of the instance
and nothing that another workspace needs. -/
theorem Referenced.removeInstance (h : Referenced s) (id : UUID) : Referenced (s.removeInstance id) where
  images := h.images
  leaving := fun id' m hm => h.leaving id' m (Table.lookup_deleteWhere_some.mp hm).1
  pairs := fun id₁ id₂ a₁ a₂ h₁ h₂ => h.pairs id₁ id₂ a₁ a₂ (Table.lookup_deleteWhere_some.mp h₁).1
    (Table.lookup_deleteWhere_some.mp h₂).1
  workspaces := by
    intro wid w hw
    obtain ⟨hw, helse⟩ := Table.lookup_deleteWhere_some.mp hw
    have hne : w.instanceId ≠ id := by simpa using helse
    have hserved := h.workspaces wid w hw
    constructor
    · obtain ⟨m, hm, hi, hact⟩ := hserved.owner
      exact ⟨m, Table.lookup_deleteWhere_some.mpr ⟨hm, by simpa [hi] using hne⟩, hi, hact⟩
    · exact hserved.image
    · exact hserved.modules
    · obtain ⟨aid, a, d, ha, hat, hai, hd, hset⟩ := hserved.deployed
      exact ⟨aid, a, d, Table.lookup_deleteWhere_some.mpr ⟨ha, by simpa [hai] using hne⟩, hat, hai,
        Table.lookup_deleteWhere_some.mpr ⟨hd, by simpa [ha, hai] using hne⟩, hset⟩

theorem Referenced.removeAssignment (h : Referenced s) {id templateId instanceId : UUID}
    (pair : ∀ a, s.assignments.lookup id = some a →
      a.templateId = templateId ∧ a.instanceId = instanceId) :
    Referenced { s with
      workspaces := s.workspaces.deleteWhere fun _ w =>
        w.templateId == templateId && w.instanceId == instanceId
      deployments := s.deployments.erase id
      assignments := s.assignments.erase id } where
  images := h.images
  leaving := h.leaving
  pairs := fun id₁ id₂ a₁ a₂ h₁ h₂ => h.pairs id₁ id₂ a₁ a₂ (Table.lookup_erase_some.mp h₁).2
    (Table.lookup_erase_some.mp h₂).2
  workspaces := by
    intro wid w hw
    obtain ⟨hw, helse⟩ := Table.lookup_deleteWhere_some.mp hw
    have hserved := h.workspaces wid w hw
    refine ⟨hserved.owner, hserved.image, hserved.modules, ?_⟩
    obtain ⟨aid, a, d, ha, hat, hai, hd, hset⟩ := hserved.deployed
    -- A workspace that stays belongs to another pair.
    have hne : aid ≠ id := by
      rintro rfl
      obtain ⟨h₁, h₂⟩ := pair a ha
      simp [← hat, ← hai, h₁, h₂] at helse
    exact ⟨aid, a, d, Table.lookup_erase_some.mpr ⟨hne, ha⟩, hat, hai,
      Table.lookup_erase_some.mpr ⟨hne, hd⟩, hset⟩

/-- What finalising an update leaves behind, when it is not refused. -/
structure Finalized (s : Store) (memberIds : List UUID) (s₁ : Store) : Prop where
  settled : ∃ c name job id i, s.ownedInstance job = some (id, i) ∧ s₁ =
    (Store.finalizeMembers { s with
      instances := s.instances.modify id fun i => { i with argocdApplicationName := some name } }
      id memberIds).settleExecution c job

def finalizes (s s' : Store) : {β : Type} → Transaction β → Prop
  | _, .finalizeUpdate _ memberIds _ => s' = s ∨ ∃ s₁, Finalized s memberIds s₁ ∧ (s' = s₁ ∨
      ∃ id, s' = (s₁.stageJob .instanceUpdate .updating .instance id .instanceUpdateStep01).2)
  | _, _ => True

theorem finalizes_of_committed {s' : Store} {β : Type} {t : Transaction β} {a : β}
    (hc : Committed s t a s') : s.finalizes s' t := by
  cases hc with
  | finalizeStale => exact .inl rfl
  | finalizeUpdate _ row final => exact .inr ⟨_, ⟨_, _, _, _, _, row, final⟩, .inl rfl⟩
  | finalizeAgain _ row final => exact .inr ⟨_, ⟨_, _, _, _, _, row, final⟩, .inr ⟨_, rfl⟩⟩
  | _ => trivial

theorem Finalized.sustains {memberIds : List UUID} {s₁ : Store} (h : Finalized s memberIds s₁) :
    Sustains s s₁ := by
  obtain ⟨c, name, job, id, i, -, rfl⟩ := h.settled
  -- The Application's name is no part of what a workspace refers to.
  have hnamed : Sustains s { s with
      instances := s.instances.modify id fun i => { i with argocdApplicationName := some name } } :=
    .of_eq (Nat.le_refl _) rfl rfl rfl rfl rfl rfl
  exact (hnamed.trans (sustains_finalizeMembers _ _)).trans (sustains_put _ _ _ _)

end Store

def RemovesPair (s : Store) : {β : Type} → Transaction β → Prop
  | _, .removeLocalAssignment c snapshot => ∀ job id a, s.ownedExecution c = some job →
      job.resourceType = some .templateAssignment → job.resourceId = some id →
      s.assignments.lookup id = some a →
      a.templateId = snapshot.templateId ∧ a.instanceId = snapshot.instanceId
  | _, _ => True

open Store in
theorem Committed.referenced {s s' : Store} {β : Type} {t : Transaction β} {a : β}
    {h : WorkerHistory} (hc : Committed s t a s') (hg : Discipline.transaction h t)
    (hl : Consistent catalogue s.ledger) (removal : RemovesPair s t) (hs : Referenced s) :
    Referenced s' := by
  cases hc with
  | claimRefused | heartbeatStale | advanceStale | completeStale | deferStale | failStale
  | retryRefused | retryNamed | bootstrapStale | bootstrapKept | finalizeStale | startedStale
  | removeStale | stateKept | deploymentApplied | deploymentMissing | removeAssignmentStale
  | remoteIdsStale => exact hs
  | claimExecution | retryReclaimed => exact (sustains_put _ _ _ _).referenced hs
  | heartbeatExecution => exact (sustains_modifyJob _ _).referenced hs
  | advanceExecution _ mutated | completeExecution _ mutated | deferExecution _ mutated
  | failExecution _ mutated => exact (mutated.sustains.trans (sustains_put _ _ _ _)).referenced hs
  | @completeDeletion claim mutate job s₁ owned mutated =>
      have htype : ∀ type, job.resourceType = some type → type = .workspace := by
        intro type htype
        obtain ⟨-, hd⟩ := hg
        have := owned_resourceType hl owned htype
        cases hd with
        | deleteWorkspace step =>
            rw [step] at this
            exact (Option.some.inj this).symm
      exact (mutated.sustains.trans
        ((sustains_modifyJob _ _).trans (sustains_deleteResource htype))).referenced hs
  | bootstrapDrawn | storeStartedApplication | recordInstanceState =>
      exact hs.of_eq (Nat.le_refl _) rfl rfl rfl rfl rfl rfl
  | claimMembers | claimCleanup => exact (sustains_updateMembers (by decide)).referenced hs
  | finalizeUpdate _ row final =>
      exact Sustains.referenced (Finalized.sustains ⟨_, _, _, _, _, row, final⟩) hs
  | finalizeAgain _ row final =>
      exact (sustains_stageJob _ _ _ _ _).referenced
        (Sustains.referenced (Finalized.sustains ⟨_, _, _, _, _, row, final⟩) hs)
  | removeLocalConfiguration =>
      exact ((sustains_modifyJob _ _).referenced hs).removeInstance _
  | @prepareDeployment c assignmentId templateId commit revision target d _ _ owned _ _ row =>
      refine (sustains_deployments fun id d₀ hd hset => ?_).referenced hs
      by_cases hid : id = assignmentId
      · subst hid
        refine ⟨_, Table.lookup_insert_self _ _ _, ?_⟩
        obtain ⟨_, _, _, _, -, -, -, -, -, -, -, rfl⟩ := lockOwnedTemplateTarget_ok owned
        rw [row, hd]
        exact hset
      · exact ⟨d₀, by simpa [Table.lookup_insert, hid] using hd, hset⟩
  | @storeTemplateRemoteIds c assignmentId org coderTemplateId versionId target d owned row =>
      refine (sustains_deployments fun id d₀ hd hset => ?_).referenced hs
      by_cases hid : id = assignmentId
      · subst hid
        refine ⟨_, by simp [hd]; rfl, ?_⟩
        cases coderTemplateId <;> simp [hset]
      · exact ⟨d₀, by simpa [Table.lookup_modify_ne, hid] using hd, hset⟩
  | @finishDeployment c assignmentId commit revision success target d owned row =>
      refine (sustains_deployments fun id d₀ hd hset => ?_).referenced hs
      by_cases hid : id = assignmentId
      · subst hid
        refine ⟨_, by simp [hd]; rfl, ?_⟩
        cases success <;> simp [hset]
      · exact ⟨d₀, by simpa [Table.lookup_modify_ne, hid] using hd, hset⟩
  | @removeLocalAssignment c snapshot job id owned type resource =>
      exact ((sustains_modifyJob _ _).referenced hs).removeAssignment
        fun a ha => removal job id a owned type resource ha
  | storeWorkspaceRemoteIds =>
      exact (sustains_workspaces (.modify (by intro _; rfl))).referenced hs

end CoderManager
