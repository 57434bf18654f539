import CoderManager.Discipline.Rules
import CoderManager.Refinement.Transactions

/-!
# References between rows

Every identifier was drawn before, and the rows a row refers to exist. Most
transactions keep the rows and their references; the others are creations and
the two deletions that take the referring rows along.
-/
namespace CoderManager
open Tables Leases
namespace Store

structure Grounded (s : Store) : Prop where
  instances : ∀ id i, s.instances.lookup id = some i → id < s.nextId
  templates : ∀ id t, s.templates.lookup id = some t → id < s.nextId
  members : ∀ id m, s.members.lookup id = some m →
    id < s.nextId ∧ ∃ i, s.instances.lookup m.instanceId = some i
  usernames : ∀ id id' m m', s.members.lookup id = some m → s.members.lookup id' = some m' →
    m.instanceId = m'.instanceId → m.username = m'.username → id = id'
  assignments : ∀ id a, s.assignments.lookup id = some a →
    id < s.nextId ∧ (∃ i, s.instances.lookup a.instanceId = some i) ∧
      ∃ t, s.templates.lookup a.templateId = some t
  workspaces : ∀ id w, s.workspaces.lookup id = some w →
    id < s.nextId ∧ (∃ i, s.instances.lookup w.instanceId = some i) ∧
      ∃ t, s.templates.lookup w.templateId = some t

theorem Grounded.empty : Grounded Store.empty := by
  constructor <;> intros <;> contradiction

/-- Every row of `s'` is a row of `s` with the same references, and no instance
and no template is gone. -/
structure Kept (s s' : Store) : Prop where
  nextId : s.nextId ≤ s'.nextId
  instances : Table.Within (fun _ => ()) s.instances s'.instances
  instancesCovered : Table.Covered s.instances s'.instances
  templates : Table.Within (fun _ => ()) s.templates s'.templates
  templatesCovered : Table.Covered s.templates s'.templates
  members : Table.Within (fun m => (m.instanceId, m.username)) s.members s'.members
  assignments : Table.Within (fun a => (a.instanceId, a.templateId)) s.assignments s'.assignments
  workspaces : Table.Within (fun w => (w.instanceId, w.templateId)) s.workspaces s'.workspaces

section Kept
variable {s s' s'' : Store}

theorem Kept.refl (s : Store) : Kept s s :=
  ⟨Nat.le_refl _, .refl _ _, .refl _, .refl _ _, .refl _, .refl _ _, .refl _ _, .refl _ _⟩

theorem Kept.trans (h : Kept s s') (h' : Kept s' s'') : Kept s s'' :=
  ⟨Nat.le_trans h.nextId h'.nextId, h.instances.trans h'.instances,
    h.instancesCovered.trans h'.instancesCovered, h.templates.trans h'.templates,
    h.templatesCovered.trans h'.templatesCovered, h.members.trans h'.members,
    h.assignments.trans h'.assignments, h.workspaces.trans h'.workspaces⟩

theorem Kept.of_eq (nextId : s.nextId ≤ s'.nextId) (instances : s'.instances = s.instances)
    (templates : s'.templates = s.templates) (members : s'.members = s.members)
    (assignments : s'.assignments = s.assignments) (workspaces : s'.workspaces = s.workspaces) :
    Kept s s' :=
  ⟨nextId, instances ▸ .refl _ _, instances ▸ .refl _, templates ▸ .refl _ _, templates ▸ .refl _,
    members ▸ .refl _ _, assignments ▸ .refl _ _, workspaces ▸ .refl _ _⟩

theorem Kept.grounded (h : Kept s s') (hs : Grounded s) : Grounded s' where
  instances := by
    intro id i' hi
    obtain ⟨i, hi, -⟩ := h.instances id i' hi
    exact Nat.lt_of_lt_of_le (hs.instances id i hi) h.nextId
  templates := by
    intro id t' ht
    obtain ⟨t, ht, -⟩ := h.templates id t' ht
    exact Nat.lt_of_lt_of_le (hs.templates id t ht) h.nextId
  members := by
    intro id m' hm
    obtain ⟨m, hm, hkeys⟩ := h.members id m' hm
    obtain ⟨hlt, i, hi⟩ := hs.members id m hm
    rw [(Prod.mk.inj hkeys).1]
    exact ⟨Nat.lt_of_lt_of_le hlt h.nextId, h.instancesCovered _ i hi⟩
  usernames := by
    intro id id' m₁ m₁' hm hm' hi hu
    obtain ⟨m, hm, hkeys⟩ := h.members id m₁ hm
    obtain ⟨m', hm', hkeys'⟩ := h.members id' m₁' hm'
    have := Prod.mk.inj hkeys
    have := Prod.mk.inj hkeys'
    exact hs.usernames id id' m m' hm hm' (by simp_all) (by simp_all)
  assignments := by
    intro id a' ha
    obtain ⟨a, ha, hkeys⟩ := h.assignments id a' ha
    obtain ⟨hlt, ⟨i, hi⟩, t, ht⟩ := hs.assignments id a ha
    rw [(Prod.mk.inj hkeys).1, (Prod.mk.inj hkeys).2]
    exact ⟨Nat.lt_of_lt_of_le hlt h.nextId, h.instancesCovered _ i hi, h.templatesCovered _ t ht⟩
  workspaces := by
    intro id w' hw
    obtain ⟨w, hw, hkeys⟩ := h.workspaces id w' hw
    obtain ⟨hlt, ⟨i, hi⟩, t, ht⟩ := hs.workspaces id w hw
    rw [(Prod.mk.inj hkeys).1, (Prod.mk.inj hkeys).2]
    exact ⟨Nat.lt_of_lt_of_le hlt h.nextId, h.instancesCovered _ i hi, h.templatesCovered _ t ht⟩

theorem kept_modifyJob (jobId : UUID) (g : JobExecution → JobExecution) :
    Kept s (s.modifyJob jobId g) := { Kept.refl s with nextId := Nat.le_refl _ }

theorem kept_modifyLifecycle (type : ResourceType) (id : UUID) (f : Lifecycle → Lifecycle) :
    Kept s (s.modifyLifecycle type id f) := by
  have h := Kept.refl s
  cases type with
  | «instance» => exact { h with instances := .modify fun _ => rfl, instancesCovered := .modify }
  | template => exact { h with templates := .modify fun _ => rfl, templatesCovered := .modify }
  | templateAssignment => exact { h with assignments := .modify fun _ => rfl }
  | workspace => exact { h with workspaces := .modify fun _ => rfl }

theorem kept_modifyResource (job : JobExecution) (f : Lifecycle → Lifecycle) :
    Kept s (s.modifyResource job f) := by
  unfold modifyResource
  split
  · exact kept_modifyLifecycle _ _ _
  · exact Kept.refl s

theorem kept_put (jobId : UUID) (g : JobExecution → JobExecution) (job : JobExecution)
    (f : Lifecycle → Lifecycle) : Kept s ((s.modifyJob jobId g).modifyResource job f) :=
  (kept_modifyJob jobId g).trans (kept_modifyResource job f)

theorem kept_stageJob (name : JobName) (action : Action) (type : ResourceType) (id : UUID)
    (step : StepName) : Kept s (s.stageJob name action type id step).2 := by
  have h : Kept s (s.addJobExecution name step.task (some type) (some id) step).2 :=
    { Kept.refl s with nextId := Nat.le_succ _ }
  have h' := h.trans (kept_modifyLifecycle type id fun _ =>
    { action, status := .pending, jobId := some s.nextId, step := some step })
  exact h'

theorem kept_discardCurrentJob (id : UUID) : Kept s (s.discardCurrentJob id) := by
  rcases s.discardCurrentJob_cases id with ⟨h, -⟩ | ⟨t, jobId, -, -, h⟩ <;> rw [h]
  · exact Kept.refl s
  · exact { Kept.refl s with templates := .modify fun _ => rfl, templatesCovered := .modify }

theorem kept_bumpSystemParameterRevision (id : UUID) : Kept s (s.bumpSystemParameterRevision id) :=
  { Kept.refl s with templates := .modify fun _ => rfl, templatesCovered := .modify }

theorem kept_instances (id : UUID) (g : Instance → Instance) :
    Kept s { s with instances := s.instances.modify id g } :=
  { Kept.refl s with instances := .modify fun _ => rfl, instancesCovered := .modify }

theorem kept_members {members : Table UUID Member}
    (h : Table.Within (fun m => (m.instanceId, m.username)) s.members members) :
    Kept s { s with members } := { Kept.refl s with members := h }

theorem kept_workspaces {workspaces : Table UUID Workspace}
    (h : Table.Within (fun w => (w.instanceId, w.templateId)) s.workspaces workspaces) :
    Kept s { s with workspaces } := { Kept.refl s with workspaces := h }

theorem kept_requestInstanceUpdate (id : UUID) (i : Instance) :
    Kept s (s.requestInstanceUpdate id i) := by
  unfold requestInstanceUpdate
  split
  · exact Kept.refl s
  · exact kept_stageJob _ _ _ _ _

theorem kept_releaseMembers (memberIds : List UUID) (status : Status) :
    Kept s (s.releaseMembers memberIds status) :=
  kept_members (.updateWhere fun _ => rfl)

theorem kept_deleteResource {job : JobExecution}
    (type : ∀ type, job.resourceType = some type → type = .workspace) :
    Kept s (s.deleteResource job) := by
  unfold deleteResource
  split
  · rename_i t id htype hid
    obtain rfl := type t htype
    exact kept_workspaces .erase
  · exact Kept.refl s

theorem kept_finalizeMembers (id : UUID) (memberIds : List UUID) :
    Kept s (s.finalizeMembers id memberIds) :=
  { Kept.refl s with
    members := .trans .deleteWhere (.updateWhere fun _ => rfl)
    workspaces := .deleteWhere }

end Kept

section Creations
variable {s : Store}

theorem Grounded.of_eq {s' : Store} (hs : Grounded s) (nextId : s.nextId ≤ s'.nextId)
    (instances : s'.instances = s.instances) (templates : s'.templates = s.templates)
    (members : s'.members = s.members) (assignments : s'.assignments = s.assignments)
    (workspaces : s'.workspaces = s.workspaces) : Grounded s' :=
  (Kept.of_eq nextId instances templates members assignments workspaces).grounded hs

theorem Grounded.insertInstance (hs : Grounded s) (i : Instance) :
    Grounded { s with nextId := s.nextId + 1, instances := s.instances.insert s.nextId i } where
  instances := by
    intro id i' hi
    rcases Table.lookup_insert_cases hi with ⟨rfl, -⟩ | ⟨-, hi⟩
    · exact Nat.lt_succ_self _
    · exact Nat.lt_succ_of_lt (hs.instances id i' hi)
  templates := fun id t ht => Nat.lt_succ_of_lt (hs.templates id t ht)
  members := by
    intro id m hm
    obtain ⟨hlt, i, hi⟩ := hs.members id m hm
    exact ⟨Nat.lt_succ_of_lt hlt, Table.Covered.insert _ i hi⟩
  usernames := hs.usernames
  assignments := by
    intro id a ha
    obtain ⟨hlt, ⟨i, hi⟩, ht⟩ := hs.assignments id a ha
    exact ⟨Nat.lt_succ_of_lt hlt, Table.Covered.insert _ i hi, ht⟩
  workspaces := by
    intro id w hw
    obtain ⟨hlt, ⟨i, hi⟩, ht⟩ := hs.workspaces id w hw
    exact ⟨Nat.lt_succ_of_lt hlt, Table.Covered.insert _ i hi, ht⟩

theorem Grounded.insertTemplate (hs : Grounded s) (t : Template) :
    Grounded { s with nextId := s.nextId + 1, templates := s.templates.insert s.nextId t } where
  instances := fun id i hi => Nat.lt_succ_of_lt (hs.instances id i hi)
  templates := by
    intro id t' ht
    rcases Table.lookup_insert_cases ht with ⟨rfl, -⟩ | ⟨-, ht⟩
    · exact Nat.lt_succ_self _
    · exact Nat.lt_succ_of_lt (hs.templates id t' ht)
  members := by
    intro id m hm
    obtain ⟨hlt, hi⟩ := hs.members id m hm
    exact ⟨Nat.lt_succ_of_lt hlt, hi⟩
  usernames := hs.usernames
  assignments := by
    intro id a ha
    obtain ⟨hlt, hi, t, ht⟩ := hs.assignments id a ha
    exact ⟨Nat.lt_succ_of_lt hlt, hi, Table.Covered.insert _ t ht⟩
  workspaces := by
    intro id w hw
    obtain ⟨hlt, hi, t, ht⟩ := hs.workspaces id w hw
    exact ⟨Nat.lt_succ_of_lt hlt, hi, Table.Covered.insert _ t ht⟩

theorem Grounded.insertMember (hs : Grounded s) (m : Member) {i : Instance}
    (row : s.instances.lookup m.instanceId = some i)
    (free : ∀ id m', s.members.lookup id = some m' → m'.instanceId = m.instanceId →
      m'.username ≠ m.username) :
    Grounded { s with nextId := s.nextId + 1, members := s.members.insert s.nextId m } where
  instances := fun id i hi => Nat.lt_succ_of_lt (hs.instances id i hi)
  templates := fun id t ht => Nat.lt_succ_of_lt (hs.templates id t ht)
  members := by
    intro id m' hm
    rcases Table.lookup_insert_cases hm with ⟨rfl, rfl⟩ | ⟨-, hm⟩
    · exact ⟨Nat.lt_succ_self _, i, row⟩
    · obtain ⟨hlt, hi⟩ := hs.members id m' hm
      exact ⟨Nat.lt_succ_of_lt hlt, hi⟩
  usernames := by
    intro id id' m₁ m₂ h₁ h₂ hi hu
    rcases Table.lookup_insert_cases h₁ with ⟨rfl, rfl⟩ | ⟨-, hold₁⟩ <;>
      rcases Table.lookup_insert_cases h₂ with ⟨rfl, rfl⟩ | ⟨-, hold₂⟩
    · rfl
    · exact absurd hu.symm (free id' m₂ hold₂ hi.symm)
    · exact absurd hu (free id m₁ hold₁ hi)
    · exact hs.usernames id id' m₁ m₂ hold₁ hold₂ hi hu
  assignments := by
    intro id a ha
    obtain ⟨hlt, hrest⟩ := hs.assignments id a ha
    exact ⟨Nat.lt_succ_of_lt hlt, hrest⟩
  workspaces := by
    intro id w hw
    obtain ⟨hlt, hrest⟩ := hs.workspaces id w hw
    exact ⟨Nat.lt_succ_of_lt hlt, hrest⟩

theorem Grounded.insertAssignment (hs : Grounded s) (a : TemplateAssignment) {i : Instance}
    {t : Template} (instanceRow : s.instances.lookup a.instanceId = some i)
    (templateRow : s.templates.lookup a.templateId = some t) :
    Grounded { s with
      nextId := s.nextId + 1, assignments := s.assignments.insert s.nextId a } where
  instances := fun id i hi => Nat.lt_succ_of_lt (hs.instances id i hi)
  templates := fun id t ht => Nat.lt_succ_of_lt (hs.templates id t ht)
  members := by
    intro id m hm
    obtain ⟨hlt, hi⟩ := hs.members id m hm
    exact ⟨Nat.lt_succ_of_lt hlt, hi⟩
  usernames := hs.usernames
  assignments := by
    intro id a' ha
    rcases Table.lookup_insert_cases ha with ⟨rfl, rfl⟩ | ⟨-, ha⟩
    · exact ⟨Nat.lt_succ_self _, ⟨i, instanceRow⟩, t, templateRow⟩
    · obtain ⟨hlt, hrest⟩ := hs.assignments id a' ha
      exact ⟨Nat.lt_succ_of_lt hlt, hrest⟩
  workspaces := by
    intro id w hw
    obtain ⟨hlt, hrest⟩ := hs.workspaces id w hw
    exact ⟨Nat.lt_succ_of_lt hlt, hrest⟩

theorem Grounded.insertWorkspace (hs : Grounded s) (w : Workspace) {i : Instance} {t : Template}
    (instanceRow : s.instances.lookup w.instanceId = some i)
    (templateRow : s.templates.lookup w.templateId = some t) :
    Grounded { s with
      nextId := s.nextId + 1, workspaces := s.workspaces.insert s.nextId w } where
  instances := fun id i hi => Nat.lt_succ_of_lt (hs.instances id i hi)
  templates := fun id t ht => Nat.lt_succ_of_lt (hs.templates id t ht)
  members := by
    intro id m hm
    obtain ⟨hlt, hi⟩ := hs.members id m hm
    exact ⟨Nat.lt_succ_of_lt hlt, hi⟩
  usernames := hs.usernames
  assignments := by
    intro id a ha
    obtain ⟨hlt, hrest⟩ := hs.assignments id a ha
    exact ⟨Nat.lt_succ_of_lt hlt, hrest⟩
  workspaces := by
    intro id w' hw
    rcases Table.lookup_insert_cases hw with ⟨rfl, rfl⟩ | ⟨-, hw⟩
    · exact ⟨Nat.lt_succ_self _, ⟨i, instanceRow⟩, t, templateRow⟩
    · obtain ⟨hlt, hrest⟩ := hs.workspaces id w' hw
      exact ⟨Nat.lt_succ_of_lt hlt, hrest⟩

theorem Grounded.eraseTemplate (hs : Grounded s) {id : UUID}
    (unassigned : ∀ aid a, s.assignments.lookup aid = some a → a.templateId ≠ id)
    (unused : ∀ wid w, s.workspaces.lookup wid = some w → w.templateId ≠ id) :
    Grounded { s with templates := s.templates.erase id } where
  instances := hs.instances
  templates := fun id' t ht => hs.templates id' t (Table.lookup_erase_some.mp ht).2
  members := hs.members
  usernames := hs.usernames
  assignments := by
    intro aid a ha
    obtain ⟨hlt, hi, t, ht⟩ := hs.assignments aid a ha
    exact ⟨hlt, hi, t, Table.lookup_erase_some.mpr ⟨unassigned aid a ha, ht⟩⟩
  workspaces := by
    intro wid w hw
    obtain ⟨hlt, hi, t, ht⟩ := hs.workspaces wid w hw
    exact ⟨hlt, hi, t, Table.lookup_erase_some.mpr ⟨unused wid w hw, ht⟩⟩

theorem Grounded.removeInstance (hs : Grounded s) (id : UUID) : Grounded (s.removeInstance id) where
  instances := fun id' i hi => hs.instances id' i (Table.lookup_erase_some.mp hi).2
  templates := hs.templates
  members := by
    intro mid m hm
    obtain ⟨hm, hne⟩ := Table.lookup_deleteWhere_some.mp hm
    obtain ⟨hlt, i, hi⟩ := hs.members mid m hm
    exact ⟨hlt, i, Table.lookup_erase_some.mpr ⟨by simpa using hne, hi⟩⟩
  usernames := by
    intro mid mid' m m' hm hm'
    exact hs.usernames mid mid' m m' (Table.lookup_deleteWhere_some.mp hm).1
      (Table.lookup_deleteWhere_some.mp hm').1
  assignments := by
    intro aid a ha
    obtain ⟨ha, hne⟩ := Table.lookup_deleteWhere_some.mp ha
    obtain ⟨hlt, ⟨i, hi⟩, ht⟩ := hs.assignments aid a ha
    exact ⟨hlt, ⟨i, Table.lookup_erase_some.mpr ⟨by simpa using hne, hi⟩⟩, ht⟩
  workspaces := by
    intro wid w hw
    obtain ⟨hw, hne⟩ := Table.lookup_deleteWhere_some.mp hw
    obtain ⟨hlt, ⟨i, hi⟩, ht⟩ := hs.workspaces wid w hw
    exact ⟨hlt, ⟨i, Table.lookup_erase_some.mpr ⟨by simpa using hne, hi⟩⟩, ht⟩

end Creations

end Store

open Store in
theorem Accepted.grounded {s s' : Store} {r : Request} (h : Accepted s r s') (hs : Grounded s) :
    Grounded s' := by
  cases h with
  | createInstance => exact (hs.insertInstance _).of_eq (Nat.le_succ _) rfl rfl rfl rfl rfl
  | requestInstanceDeletion => exact (kept_stageJob _ _ _ _ _).grounded hs
  | requestSync _ retried =>
      subst retried
      exact (kept_stageJob _ _ _ _ _).grounded
        ((kept_members (.updateWhere (by intro _; rfl))).grounded hs)
  | requestStart => exact (kept_stageJob _ _ _ _ _).grounded hs
  | requestStop => exact (kept_stageJob _ _ _ _ _).grounded hs
  | createKubernetesProvider => 
      exact (kept_stageJob _ _ _ _ _).grounded (hs.of_eq (Nat.le_refl _) rfl rfl rfl rfl rfl)
  | createDatabase => exact hs.of_eq (Nat.le_succ _) rfl rfl rfl rfl rfl
  | updateDatabase => exact hs.of_eq (Nat.le_refl _) rfl rfl rfl rfl rfl
  | deleteDatabase => exact hs.of_eq (Nat.le_refl _) rfl rfl rfl rfl rfl
  | requestDatabaseSync => exact hs.of_eq (Nat.le_succ _) rfl rfl rfl rfl rfl
  | createMember available free added =>
      subst added
      exact (kept_requestInstanceUpdate _ _).grounded (hs.insertMember _ available.1 free)
  | updateMemberRole _ _ _ _ changed =>
      subst changed
      exact (kept_requestInstanceUpdate _ _).grounded
        ((kept_members (.modify (by intro _; rfl))).grounded hs)
  | keepMemberRole => exact hs
  | requestMemberDeletion _ _ _ _ _ changed =>
      subst changed
      exact (kept_requestInstanceUpdate _ _).grounded
        ((kept_members (.modify (by intro _; rfl))).grounded hs)
  | createTemplate => exact hs.insertTemplate _
  | @updateTemplate id payload t =>
      have h₁ := Kept.refl (s.discardCurrentJob id)
      refine Kept.grounded ?_ ((kept_discardCurrentJob id).grounded hs)
      exact { h₁ with templates := .modify fun _ => rfl, templatesCovered := .modify }
  | keepTemplate => exact hs
  | @deleteTemplate id t _ _ _ row settled unassigned unused =>
      have h₁ := @Grounded.eraseTemplate _ ((kept_discardCurrentJob id).grounded hs) id
        (by simpa using unassigned) (by simpa using unused)
      exact h₁.of_eq (Nat.le_refl _) rfl rfl rfl rfl rfl
  | requestTemplateSync =>
      exact (kept_stageJob _ _ _ _ _).grounded ((kept_discardCurrentJob _).grounded hs)
  | createImage => exact hs.of_eq (Nat.le_succ _) rfl rfl rfl rfl rfl
  | deleteImage => exact hs.of_eq (Nat.le_refl _) rfl rfl rfl rfl rfl
  | createUserParameter => exact hs.of_eq (Nat.le_succ _) rfl rfl rfl rfl rfl
  | createSystemParameter =>
      exact (kept_bumpSystemParameterRevision _).grounded
        (hs.of_eq (Nat.le_succ _) rfl rfl rfl rfl rfl)
  | updateParameter => exact hs.of_eq (Nat.le_refl _) rfl rfl rfl rfl rfl
  | updateSystemValue =>
      exact (kept_bumpSystemParameterRevision _).grounded
        (hs.of_eq (Nat.le_refl _) rfl rfl rfl rfl rfl)
  | deleteUserParameter => exact hs.of_eq (Nat.le_refl _) rfl rfl rfl rfl rfl
  | deleteSystemParameter =>
      exact ((kept_bumpSystemParameterRevision _).grounded hs).of_eq (Nat.le_refl _) rfl rfl rfl rfl
        rfl
  | putAssignment assignable absent =>
      obtain ⟨i, t, hi, ht, -⟩ := assignable
      exact (hs.insertAssignment _ hi ht).of_eq (Nat.le_succ _) rfl rfl rfl rfl rfl
  | keepAssignment => exact hs
  | requestAssignmentDeletion => exact (kept_stageJob _ _ _ _ _).grounded hs
  | keepAssignmentDeletion => exact hs
  | createWorkspace row _ source =>
      exact (hs.insertWorkspace _ row source).of_eq (Nat.le_succ _) rfl rfl rfl rfl rfl
  | updateWorkspace _ _ _ _ changed same =>
      subst changed
      exact (kept_stageJob _ _ _ _ _).grounded
        ((kept_workspaces (.modify fun w => by rw [(same w).2.1, (same w).2.2.1])).grounded hs)
  | keepWorkspace => exact hs
  | requestWorkspaceDeletion => exact (kept_stageJob _ _ _ _ _).grounded hs

section Owned
variable {s : Store} {c : ExecutionClaim} {job : JobExecution}

theorem Store.owned_mem_steps (hl : Consistent catalogue s.ledger)
    (ho : s.ownedExecution c = some job) : c.step ∈ job.name.steps := by
  obtain ⟨hrow, -, hstep, -⟩ := ownedExecution_eq_some.mp ho
  have hstage := hl.stage c.jobId job.lease (by simp [ledger, hrow])
  exact hstep ▸ hstage.1

theorem Store.owned_resourceType (hl : Consistent catalogue s.ledger)
    (ho : s.ownedExecution c = some job) {type : ResourceType}
    (htype : job.resourceType = some type) : c.step.resourceType = some type := by
  obtain ⟨hrow, -⟩ := ownedExecution_eq_some.mp ho
  have hmade := hl.made c.jobId job.lease (type, job.resourceId) (by simp [ledger, hrow])
    (by simp [JobExecution.lease, htype])
  rw [← JobName.resourceType_eq (owned_mem_steps hl ho)]
  exact hmade

end Owned

open Store in
theorem Mutated.kept {s s' : Store} {job : JobExecution} {m : Mutation} (h : Mutated s job m s') :
    Kept s s' := by
  cases h with
  | none => exact Kept.refl s
  | storeApplicationName => exact kept_instances _ _
  | promotePassword => exact kept_instances _ _
  | markStopped => exact kept_instances _ _
  | markCreated => exact kept_modifyLifecycle _ _ _
  | failMembers => exact kept_releaseMembers _ _
  | deferMembers => exact kept_releaseMembers _ _
  | convergeWorkspace _ _ same =>
      exact kept_workspaces (.modify fun w => by rw [(same w).2.1, (same w).2.2.1])
  | keepWorkspace => exact Kept.refl s

open Store in
theorem Committed.grounded {s s' : Store} {β : Type} {t : Transaction β} {a : β}
    {h : WorkerHistory} (hc : Committed s t a s') (hg : Discipline.transaction h t)
    (hl : Consistent catalogue s.ledger) (hs : Grounded s) : Grounded s' := by
  cases hc with
  | claimRefused | heartbeatStale | advanceStale | completeStale | deferStale | failStale
  | retryRefused | retryNamed | bootstrapStale | bootstrapKept | finalizeStale | startedStale
  | removeStale | stateKept | deploymentApplied | deploymentMissing | removeAssignmentStale
  | remoteIdsStale => exact hs
  | claimExecution => exact (kept_put _ _ _ _).grounded hs
  | heartbeatExecution => exact (kept_modifyJob _ _).grounded hs
  | advanceExecution _ mutated => exact (mutated.kept.trans (kept_put _ _ _ _)).grounded hs
  | completeExecution _ mutated => exact (mutated.kept.trans (kept_put _ _ _ _)).grounded hs
  | @completeDeletion claim mutate job s₁ owned mutated =>
      have hstep : claim.step = .workspaceDeleteStep01 := by
        obtain ⟨-, hd⟩ := hg
        cases hd
        assumption
      have htype : ∀ type, job.resourceType = some type → type = .workspace := by
        intro type htype
        have := owned_resourceType hl owned htype
        rw [hstep] at this
        exact (Option.some.inj this).symm
      exact (mutated.kept.trans ((kept_modifyJob _ _).trans (kept_deleteResource htype))).grounded hs
  | deferExecution _ mutated => exact (mutated.kept.trans (kept_put _ _ _ _)).grounded hs
  | failExecution _ mutated => exact (mutated.kept.trans (kept_put _ _ _ _)).grounded hs
  | retryReclaimed => exact (kept_put _ _ _ _).grounded hs
  | bootstrapDrawn => exact (kept_instances _ _).grounded hs
  | claimMembers => exact (kept_members (.updateWhere (by intro _; rfl))).grounded hs
  | claimCleanup => exact (kept_members (.updateWhere (by intro _; rfl))).grounded hs
  | finalizeUpdate owned row final =>
      subst final
      exact (((kept_instances _ _).trans (kept_finalizeMembers _ _)).trans
        (kept_put _ _ _ _)).grounded hs
  | finalizeAgain owned row final =>
      subst final
      exact ((((kept_instances _ _).trans (kept_finalizeMembers _ _)).trans
        (kept_put _ _ _ _)).trans (kept_stageJob _ _ _ _ _)).grounded hs
  | storeStartedApplication => exact (kept_instances _ _).grounded hs
  | removeLocalConfiguration =>
      exact ((kept_modifyJob _ _).grounded hs).removeInstance _
  | recordInstanceState => exact (kept_instances _ _).grounded hs
  | prepareDeployment => exact hs.of_eq (Nat.le_refl _) rfl rfl rfl rfl rfl
  | storeTemplateRemoteIds => exact hs.of_eq (Nat.le_refl _) rfl rfl rfl rfl rfl
  | finishDeployment => exact hs.of_eq (Nat.le_refl _) rfl rfl rfl rfl rfl
  | removeLocalAssignment =>
      refine Kept.grounded ?_ hs
      exact { Kept.refl s with
        nextId := Nat.le_refl _, assignments := .erase, workspaces := .deleteWhere }
  | storeWorkspaceRemoteIds => exact (kept_workspaces (.modify (by intro _; rfl))).grounded hs

end CoderManager
