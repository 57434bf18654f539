import CoderManager.Refinement.Execution
import CoderManager.System

/-!
# Accepted requests

`Accepted` lists what a request may commit, with everything it checked before.
Invariants of the database are proved from it and never unfold a repository.
-/
namespace CoderManager
open Tables Leases

section Except
variable {ε α β : Type}

theorem bind_eq_ok {x : Except ε α} {f : α → Except ε β} {b : β} :
    (x >>= f) = .ok b ↔ ∃ a, x = .ok a ∧ f a = .ok b := by
  cases x <;> simp [bind, Except.bind]

theorem pure_eq_ok {a b : α} : (pure a : Except ε α) = .ok b ↔ a = b := by
  simp [pure, Except.pure]

theorem throw_eq_ok {e : ε} {b : α} : (throw e : Except ε α) = .ok b ↔ False := by
  simp [throw, throwThe, MonadExceptOf.throw]

theorem present_eq_ok {row : Option α} {error : RequestError} {a : α} :
    present row error = .ok a ↔ row = some a := by
  cases row <;> simp [present]

theorem require_eq_ok {condition : Bool} {error : RequestError} {u : Unit} :
    require condition error = .ok u ↔ condition = true := by
  cases condition <;> simp [require]

theorem found_eq_ok {row : Option α} {error : WorkerError} {a : α} :
    found row error = .ok a ↔ row = some a := by
  cases row <;> simp [found]

end Except

namespace Store
variable {s s' : Store} {id j : UUID}

/-- No template convergence is under way on the instance: neither an assignment
of it nor the template of one is being converged. -/
def Unassigned (s : Store) (instanceId : UUID) : Prop :=
  ∀ id a t, s.assignments.lookup id = some a → a.instanceId = instanceId →
    s.templates.lookup a.templateId = some t → a.status = .success ∧ t.status = .success

theorem hasActiveTemplateAssignment_eq_false :
    s.hasActiveTemplateAssignment id = false ↔ s.Unassigned id := by
  rw [hasActiveTemplateAssignment, Table.any_eq_false]
  constructor
  · intro h aid a t ha hid ht
    have := h aid a ha
    simpa [hid, ht] using this
  · intro h aid a ha
    by_cases hid : a.instanceId = id
    · cases ht : s.templates.lookup a.templateId with
      | none => simp
      | some t =>
          obtain ⟨h₁, h₂⟩ := h aid a t ha hid ht
          simp [h₁, h₂]
    · simp [hid]

def Idle (s : Store) (instanceId : UUID) (i : Instance) : Prop :=
  s.instances.lookup instanceId = some i ∧ s.Unassigned instanceId ∧ i.action ≠ .deleting ∧
    (i.status = .success ∨ (i.status = .error ∧ i.action ≠ .creating))

theorem requireIdleInstance_ok {i : Instance} (h : s.requireIdleInstance id = .ok i) :
    s.Idle id i := by
  simp only [requireIdleInstance, bind_eq_ok, pure_eq_ok, present_eq_ok, require_eq_ok] at h
  obtain ⟨i', hi, -, hidle, rfl⟩ := h
  simp only [Bool.not_eq_true', Bool.or_eq_false_iff, Status.inProgress_eq_false,
    creationIsIncomplete, Bool.and_eq_false_iff, beq_eq_false_iff_ne, bne_eq_false_iff_eq,
    hasActiveTemplateAssignment_eq_false] at hidle
  obtain ⟨⟨⟨hcreate, hdel⟩, hst⟩, hun⟩ := hidle
  refine ⟨hi, hun, hdel, ?_⟩
  rcases hst with hst | hst
  · exact .inl hst
  · refine .inr ⟨hst, fun ha => ?_⟩
    rcases hcreate with h | h
    · exact h ha
    · rw [hst] at h
      cases h

/-- An instance that accepts member changes: settled, or at the first step of
an update that will see the change. -/
def OpenToMembers (s : Store) (instanceId : UUID) (i : Instance) : Prop :=
  s.instances.lookup instanceId = some i ∧ s.Unassigned instanceId ∧
    (i.status = .success ∨
      (i.action = .updating ∧ i.step = some .instanceUpdateStep01 ∧ i.status.inProgress = true))

theorem lockAvailableMemberInstance_ok {i : Instance}
    (h : s.lockAvailableMemberInstance id = .ok i) : s.OpenToMembers id i := by
  simp only [lockAvailableMemberInstance, bind_eq_ok, pure_eq_ok, present_eq_ok, require_eq_ok,
    Bool.not_eq_true', hasActiveTemplateAssignment_eq_false, Bool.or_eq_true, Bool.and_eq_true,
    beq_iff_eq] at h
  obtain ⟨i', hi, -, hun, -, hstate, rfl⟩ := h
  refine ⟨hi, hun, ?_⟩
  rcases hstate with ⟨⟨ha, hs⟩, hp⟩ | hst
  · exact .inr ⟨ha, hs, hp⟩
  · exact .inl hst

def Calm (s : Store) (templateId : UUID) (t : Template) : Prop :=
  s.templates.lookup templateId = some t ∧ t.status = .success ∧
    ∀ id a, s.assignments.lookup id = some a → a.templateId = templateId → a.status = .success

theorem hasActiveAssignment_eq_false :
    s.hasActiveAssignment id = false ↔
      ∀ aid a, s.assignments.lookup aid = some a → a.templateId = id → a.status = .success := by
  rw [hasActiveAssignment, Table.any_eq_false]
  refine forall_congr' fun aid => forall_congr' fun a => imp_congr_right fun _ => ?_
  by_cases h : a.templateId = id <;> simp [h]

def Quiet (s : Store) (templateId : UUID) : Prop :=
  ∀ id w, s.workspaces.lookup id = some w → w.templateId = templateId → w.status = .success

theorem hasActiveWorkspace_eq_false : s.hasActiveWorkspace id = false ↔ s.Quiet id := by
  rw [hasActiveWorkspace, Table.any_eq_false]
  refine forall_congr' fun wid => forall_congr' fun w => imp_congr_right fun _ => ?_
  by_cases h : w.templateId = id <;> simp [h]

def Deployed (s : Store) (templateId instanceId : UUID) : Prop :=
  ∃ assignmentId a t d, s.assignments.lookup assignmentId = some a ∧ a.templateId = templateId ∧
    a.instanceId = instanceId ∧ a.action = .created ∧ a.status = .success ∧
    s.templates.lookup templateId = some t ∧ t.status = .success ∧
    s.deployments.lookup assignmentId = some d ∧ d.coderTemplateId.isSome = true

theorem requireRemoteTemplate_ok {u : Unit} (h : s.requireRemoteTemplate j id = .ok u) :
    s.Deployed j id := by
  simp only [requireRemoteTemplate, require_eq_ok, Table.any_eq_true, Bool.and_eq_true, beq_iff_eq,
    Option.any_eq_true_iff_get] at h
  obtain ⟨aid, a, ha, ⟨⟨⟨⟨rfl, hi⟩, hact⟩, hst⟩, ht⟩, hd⟩ := h
  obtain ⟨htsome, ht⟩ := ht
  obtain ⟨hdsome, hd⟩ := hd
  exact ⟨aid, a, _, _, ha, rfl, hi, hact, hst, (Option.some_get htsome).symm, ht,
    (Option.some_get hdsome).symm, hd⟩

theorem lockParameterTemplate_ok {t : Template} (h : s.lockParameterTemplate id = .ok t) :
    s.Calm id t := by
  simp only [lockParameterTemplate, bind_eq_ok, pure_eq_ok, present_eq_ok, require_eq_ok,
    Bool.not_eq_true', Status.isActive_eq_false, hasActiveAssignment_eq_false] at h
  obtain ⟨t', ht, -, hst, -, hass, rfl⟩ := h
  exact ⟨ht, hst, hass⟩

theorem lockParameter_ok {p : TemplateParameter} (h : s.lockParameter id j = .ok p) :
    s.parameters.lookup j = some p ∧ p.templateId = id := by
  simp only [lockParameter, bind_eq_ok, pure_eq_ok, present_eq_ok, require_eq_ok, beq_iff_eq] at h
  obtain ⟨p', hp, -, ht, rfl⟩ := h
  exact ⟨hp, ht⟩

theorem lockMember_ok {m : Member} (h : s.lockMember id j = .ok m) :
    s.members.lookup j = some m ∧ m.instanceId = id := by
  simp only [lockMember, bind_eq_ok, pure_eq_ok, present_eq_ok, require_eq_ok, beq_iff_eq] at h
  obtain ⟨m', hm, -, hi, rfl⟩ := h
  exact ⟨hm, hi⟩

/-- Assignments may be requested: the instance runs and the template is settled. -/
def Assignable (s : Store) (instanceId templateId : UUID) : Prop :=
  ∃ i t, s.instances.lookup instanceId = some i ∧ s.templates.lookup templateId = some t ∧
    i.state = .started ∧ i.status = .success ∧ t.status = .success

theorem requireMutationAvailable_ok {i : Instance} {t : Template} {u : Unit}
    (h : requireMutationAvailable i t = .ok u) :
    i.state = .started ∧ i.status = .success ∧ t.status = .success := by
  simp only [requireMutationAvailable, bind_eq_ok, require_eq_ok, Bool.and_eq_true, beq_iff_eq,
    Bool.not_eq_true', Status.isActive_eq_false] at h
  obtain ⟨-, ⟨h₁, h₂⟩, h₃⟩ := h
  exact ⟨h₁, h₂, h₃⟩

end Store

theorem Store.discardCurrentJob_cases (s : Store) (id : UUID) :
    (s.discardCurrentJob id = s ∧ ∀ t, s.templates.lookup id = some t → t.jobId = none) ∨
      ∃ t jobId, s.templates.lookup id = some t ∧ t.jobId = some jobId ∧
        s.discardCurrentJob id = { s with
          jobs := s.jobs.erase jobId
          templates := s.templates.modify id fun t => { t with jobId := none } } := by
  unfold discardCurrentJob
  cases ht : s.templates.lookup id with
  | none => exact .inl ⟨rfl, fun _ h => by cases h⟩
  | some t =>
      cases hj : t.jobId with
      | none =>
          refine .inl ⟨by simp [hj], fun _ h => ?_⟩
          cases h
          exact hj
      | some jobId => exact .inr ⟨t, jobId, rfl, hj, by simp [hj, modifyLifecycle]⟩

section Discard
variable (s : Store) (id : UUID)

@[simp] theorem Store.instances_discardCurrentJob :
    (s.discardCurrentJob id).instances = s.instances := by
  rcases s.discardCurrentJob_cases id with ⟨h, -⟩ | ⟨t, j, -, -, h⟩ <;> rw [h]

@[simp] theorem Store.members_discardCurrentJob :
    (s.discardCurrentJob id).members = s.members := by
  rcases s.discardCurrentJob_cases id with ⟨h, -⟩ | ⟨t, j, -, -, h⟩ <;> rw [h]

@[simp] theorem Store.assignments_discardCurrentJob :
    (s.discardCurrentJob id).assignments = s.assignments := by
  rcases s.discardCurrentJob_cases id with ⟨h, -⟩ | ⟨t, j, -, -, h⟩ <;> rw [h]

@[simp] theorem Store.workspaces_discardCurrentJob :
    (s.discardCurrentJob id).workspaces = s.workspaces := by
  rcases s.discardCurrentJob_cases id with ⟨h, -⟩ | ⟨t, j, -, -, h⟩ <;> rw [h]

@[simp] theorem Store.images_discardCurrentJob : (s.discardCurrentJob id).images = s.images := by
  rcases s.discardCurrentJob_cases id with ⟨h, -⟩ | ⟨t, j, -, -, h⟩ <;> rw [h]

@[simp] theorem Store.deployments_discardCurrentJob :
    (s.discardCurrentJob id).deployments = s.deployments := by
  rcases s.discardCurrentJob_cases id with ⟨h, -⟩ | ⟨t, j, -, -, h⟩ <;> rw [h]

@[simp] theorem Store.parameters_discardCurrentJob :
    (s.discardCurrentJob id).parameters = s.parameters := by
  rcases s.discardCurrentJob_cases id with ⟨h, -⟩ | ⟨t, j, -, -, h⟩ <;> rw [h]

@[simp] theorem Store.systemValues_discardCurrentJob :
    (s.discardCurrentJob id).systemValues = s.systemValues := by
  rcases s.discardCurrentJob_cases id with ⟨h, -⟩ | ⟨t, j, -, -, h⟩ <;> rw [h]

@[simp] theorem Store.nextId_discardCurrentJob : (s.discardCurrentJob id).nextId = s.nextId := by
  rcases s.discardCurrentJob_cases id with ⟨h, -⟩ | ⟨t, j, -, -, h⟩ <;> rw [h]

end Discard

/-- What a request commits. -/
inductive Accepted (s : Store) : Request → Store → Prop
  | createInstance {application : String} {slug : InstanceSlug} {databaseId : UUID} {d : Database}
      (database : s.leastUtilizedDatabase = some (databaseId, d))
      (slugFree : ∀ id i, s.instances.lookup id = some i → i.slug ≠ slug.text) :
      Accepted s (.createInstance application slug) { s with
        nextId := s.nextId + 2
        jobs := s.jobs.insert (s.nextId + 1) {
          name := .instanceCreate, taskName := StepName.instanceCreateStep01.task
          resourceType := some .instance, resourceId := some s.nextId
          step := .instanceCreateStep01, status := .pending, attempt := 0, claimedAt := none
          createdAt := s.now }
        instances := s.instances.insert s.nextId {
          action := .creating, status := .pending, jobId := some (s.nextId + 1)
          step := some .instanceCreateStep01, application, slug := slug.text, state := .stopped
          passwordEnc := none, passwordCandidateEnc := none, argocdApplicationName := none }
        allocations := s.allocations.insert s.nextId {
          databaseId, schemaName := "coder_" ++ toString s.nextId } }
  | requestInstanceDeletion {id : UUID} {i : Instance} {step : StepName}
      (row : s.instances.lookup id = some i) (unassigned : s.Unassigned id)
      (settled : i.status = .success ∨ (i.action = .creating ∧ i.status = .error))
      (alive : i.action ≠ .deleting)
      (entry : (step = .instanceDeleteStep02 ∧ i.action = .creating ∧ i.status = .error ∧
          i.passwordEnc = none) ∨
        (step = .instanceDeleteStep01 ∧
          ¬(i.action = .creating ∧ i.status = .error ∧ i.passwordEnc = none))) :
      Accepted s (.requestInstanceDeletion id)
        (s.stageJob .instanceDelete .deleting .instance id step).2
  | requestSync {id : UUID} {i : Instance} {members : Table UUID Member} (idle : s.Idle id i)
      (retried : members = s.members.updateWhere
        (fun _ m => m.instanceId == id && m.status == .error)
        (fun m => { m with status := .pending })) :
      Accepted s (.requestSync id) (Store.stageJob { s with members }
        .instanceUpdate .updating .instance id .instanceUpdateStep01).2
  | requestStart {id : UUID} {i : Instance} (idle : s.Idle id i) :
      Accepted s (.requestStart id)
        (s.stageJob .instanceStart .starting .instance id .instanceStartStep01).2
  | requestStop {id : UUID} {i : Instance} (idle : s.Idle id i) :
      Accepted s (.requestStop id)
        (s.stageJob .instanceStop .stopping .instance id .instanceStopStep01).2
  | createKubernetesProvider {id : UUID} {kubeconfig : String} {i : Instance}
      {kubernetesProviders : Table UUID InstanceKubernetes}
      (row : s.instances.lookup id = some i) (settled : i.status = .success)
      (unset : s.kubernetesProviders.lookup id = none)
      (stored : kubernetesProviders =
        s.kubernetesProviders.insert id ⟨.encrypt kubeconfig id⟩) :
      Accepted s (.createKubernetesProvider id kubeconfig)
        (Store.stageJob { s with kubernetesProviders }
          .instanceUpdate .updating .instance id .instanceUpdateStep01).2
  | createDatabase {payload : DatabaseFields} {password : String} {d : Database}
      (sealing : d.passwordEnc = .encrypt password s.nextId) :
      Accepted s (.createDatabase payload password)
        { s with nextId := s.nextId + 1, databases := s.databases.insert s.nextId d }
  | updateDatabase {id : UUID} {payload : DatabaseFields} {password : Option String}
      {d d' : Database} (row : s.databases.lookup id = some d)
      (sealing : d'.passwordEnc = d.passwordEnc ∨
        ∃ value, d'.passwordEnc = .encrypt value id) :
      Accepted s (.updateDatabase id payload password)
        { s with databases := s.databases.insert id d' }
  | deleteDatabase {id : UUID}
      (unused : ∀ instanceId a, s.allocations.lookup instanceId = some a → a.databaseId ≠ id) :
      Accepted s (.deleteDatabase id) { s with databases := s.databases.erase id }
  | requestDatabaseSync :
      Accepted s .requestDatabaseSync (s.addJobExecution .databaseSync
        StepName.databaseSyncStep01.task none none .databaseSyncStep01).2
  | createMember {id : UUID} {username : String} {role : MemberRole} {i : Instance}
      {members : Table UUID Member} (available : s.OpenToMembers id i)
      (free : ∀ memberId m, s.members.lookup memberId = some m → m.instanceId = id →
        m.username ≠ username)
      (added : members = s.members.insert s.nextId
        { instanceId := id, username, role, action := .creating, status := .pending }) :
      Accepted s (.createMember id username role)
        (Store.requestInstanceUpdate { s with nextId := s.nextId + 1, members } id i)
  | updateMemberRole {id memberId : UUID} {role : MemberRole} {i : Instance} {m : Member}
      {members : Table UUID Member} (available : s.OpenToMembers id i)
      (row : s.members.lookup memberId = some m) (own : m.instanceId = id)
      (settled : m.status = .success)
      (changed : members = s.members.modify memberId
        fun m => { m with role, action := .updating, status := .pending }) :
      Accepted s (.updateMemberRole id memberId role)
        (Store.requestInstanceUpdate { s with members } id i)
  | keepMemberRole {id memberId : UUID} {role : MemberRole} :
      Accepted s (.updateMemberRole id memberId role) s
  | requestMemberDeletion {id memberId : UUID} {protectedUsernames : List String} {i : Instance}
      {m : Member} {members : Table UUID Member} (available : s.OpenToMembers id i)
      (row : s.members.lookup memberId = some m) (own : m.instanceId = id)
      (settled : m.status = .success)
      (unused : ∀ workspaceId w, s.workspaces.lookup workspaceId = some w → w.memberId ≠ memberId)
      (changed : members = s.members.modify memberId
        fun m => { m with action := .deleting, status := .pending }) :
      Accepted s (.requestMemberDeletion id memberId protectedUsernames)
        (Store.requestInstanceUpdate { s with members } id i)
  | createTemplate {name : String} {payload : TemplateFields} {t : Template}
      (free : ∀ id u, s.templates.lookup id = some u → u.name.toLower ≠ name.toLower)
      (row : t = {
        action := .created, status := .success, jobId := none, step := none
        displayName := payload.displayName, name, gitUrl := payload.gitUrl
        sourcePath := payload.sourcePath, branch := payload.branch, modules := payload.modules
        systemParameterRevision := 0 }) :
      Accepted s (.createTemplate name payload)
        { s with nextId := s.nextId + 1, templates := s.templates.insert s.nextId t }
  | updateTemplate {id : UUID} {payload : TemplateFields} {t : Template} (calm : s.Calm id t)
      (quiet : s.Quiet id)
      (compatible : ∀ wid w, s.workspaces.lookup wid = some w → w.templateId = id →
        ∀ m ∈ w.modules, m ∈ payload.modules) :
      Accepted s (.updateTemplate id payload) { s.discardCurrentJob id with
        templates := (s.discardCurrentJob id).templates.modify id fun t => { t with
          displayName := payload.displayName, gitUrl := payload.gitUrl
          sourcePath := payload.sourcePath, branch := payload.branch, modules := payload.modules
          action := .updated, status := .success, step := none } }
  | keepTemplate {id : UUID} {payload : TemplateFields} : Accepted s (.updateTemplate id payload) s
  | deleteTemplate {id : UUID} {t : Template} {images : Table UUID TemplateImage}
      {parameters : Table UUID TemplateParameter} {systemValues : Table UUID Sealed}
      (row : s.templates.lookup id = some t) (settled : t.status = .success)
      (unassigned : ∀ aid a, s.assignments.lookup aid = some a → a.templateId ≠ id)
      (unused : ∀ wid w, s.workspaces.lookup wid = some w → w.templateId ≠ id)
      (imagesKept : images = s.images.deleteWhere fun _ i => i.templateId == id)
      (parametersKept : parameters = s.parameters.deleteWhere fun _ p => p.templateId == id)
      (valuesKept : systemValues = s.systemValues.deleteWhere fun parameterId _ =>
        (s.parameters.lookup parameterId).any fun p => p.templateId == id) :
      Accepted s (.deleteTemplate id) { s.discardCurrentJob id with
        templates := (s.discardCurrentJob id).templates.erase id, images, parameters, systemValues }
  | requestTemplateSync {id : UUID} {t : Template} (calm : s.Calm id t) (quiet : s.Quiet id) :
      Accepted s (.requestTemplateSync id) ((s.discardCurrentJob id).stageJob .templateSync .syncing
        .template id .templateSyncStep01).2
  | createImage {id : UUID} {registry name version : String} {images : Table UUID TemplateImage}
      (added : images = s.images.insert s.nextId
        { templateId := id, registryName := registry, name, version }) :
      Accepted s (.createImage id registry name version) { s with nextId := s.nextId + 1, images }
  | deleteImage {id imageId : UUID} {images : Table UUID TemplateImage}
      (unused : ∀ wid w, s.workspaces.lookup wid = some w → w.imageId ≠ imageId)
      (removed : images = s.images.erase imageId) :
      Accepted s (.deleteImage id imageId) { s with images }
  | createUserParameter {id : UUID} {name displayName description : String}
      {required mutable : Bool} {defaultValue : Option String} {t : Template} (calm : s.Calm id t)
      (free : ∀ parameterId p, s.parameters.lookup parameterId = some p → p.templateId = id →
        p.name ≠ name) :
      Accepted s (.createParameter id name displayName description
        (.user required mutable defaultValue)) { s with
          nextId := s.nextId + 1
          parameters := s.parameters.insert s.nextId {
            templateId := id, type := .user, name, displayName, description
            required := some required, mutable := some mutable, defaultValue } }
  | createSystemParameter {id : UUID} {name displayName description value : String} {t : Template}
      (calm : s.Calm id t)
      (free : ∀ parameterId p, s.parameters.lookup parameterId = some p → p.templateId = id →
        p.name ≠ name) :
      Accepted s (.createParameter id name displayName description (.system value))
        (Store.bumpSystemParameterRevision { s with
          nextId := s.nextId + 1
          parameters := s.parameters.insert s.nextId {
            templateId := id, type := .system, name, displayName, description, required := none
            mutable := none, defaultValue := none }
          systemValues := s.systemValues.insert s.nextId (.encrypt value s.nextId) } id)
  | updateParameter {id parameterId : UUID} {displayName description : String}
      {update : ParameterUpdate} {p p' : TemplateParameter} {t : Template} (calm : s.Calm id t)
      (row : s.parameters.lookup parameterId = some p) (own : p.templateId = id)
      (same : p'.templateId = p.templateId ∧ p'.type = p.type ∧ p'.name = p.name) :
      Accepted s (.updateParameter id parameterId displayName description update)
        { s with parameters := s.parameters.insert parameterId p' }
  | updateSystemValue {id parameterId : UUID} {displayName description value : String}
      {p p' : TemplateParameter} {t : Template} (calm : s.Calm id t)
      (row : s.parameters.lookup parameterId = some p) (own : p.templateId = id)
      (type : p.type = .system)
      (same : p'.templateId = p.templateId ∧ p'.type = p.type ∧ p'.name = p.name) :
      Accepted s (.updateParameter id parameterId displayName description (.system (some value)))
        (Store.bumpSystemParameterRevision { s with
          parameters := s.parameters.insert parameterId p'
          systemValues := s.systemValues.insert parameterId (.encrypt value parameterId) } id)
  | deleteUserParameter {id parameterId : UUID} {p : TemplateParameter} {t : Template}
      (calm : s.Calm id t) (row : s.parameters.lookup parameterId = some p)
      (own : p.templateId = id) (type : p.type = .user) :
      Accepted s (.deleteParameter id parameterId) { s with
        parameters := s.parameters.erase parameterId
        systemValues := s.systemValues.erase parameterId }
  | deleteSystemParameter {id parameterId : UUID} {p : TemplateParameter} {t : Template}
      (calm : s.Calm id t) (row : s.parameters.lookup parameterId = some p)
      (own : p.templateId = id) (type : p.type = .system) :
      Accepted s (.deleteParameter id parameterId) { s.bumpSystemParameterRevision id with
        parameters := s.parameters.erase parameterId
        systemValues := s.systemValues.erase parameterId }
  | putAssignment {id templateId : UUID} (assignable : s.Assignable id templateId)
      (absent : s.findAssignment id templateId = none) :
      Accepted s (.putAssignment id templateId) { s with
        nextId := s.nextId + 2
        jobs := s.jobs.insert (s.nextId + 1) {
          name := .templateAssignmentCreate
          taskName := StepName.templateAssignmentCreateStep01.task
          resourceType := some .templateAssignment, resourceId := some s.nextId
          step := .templateAssignmentCreateStep01, status := .pending, attempt := 0
          claimedAt := none, createdAt := s.now }
        assignments := s.assignments.insert s.nextId {
          action := .creating, status := .pending, jobId := some (s.nextId + 1)
          step := some .templateAssignmentCreateStep01, templateId, instanceId := id } }
  | keepAssignment {id templateId : UUID} : Accepted s (.putAssignment id templateId) s
  | requestAssignmentDeletion {id templateId assignmentId : UUID} {a : TemplateAssignment}
      (assignable : s.Assignable id templateId)
      (row : s.assignments.lookup assignmentId = some a) (own : a.instanceId = id)
      (source : a.templateId = templateId) (created : a.action = .created)
      (settled : a.status = .success)
      (idle : ∀ wid w, s.workspaces.lookup wid = some w → w.instanceId = id →
        w.templateId = templateId → w.status = .success) :
      Accepted s (.requestAssignmentDeletion id templateId)
        (s.stageJob .templateAssignmentDelete .deleting .templateAssignment assignmentId
          .templateAssignmentDeleteStep01).2
  | keepAssignmentDeletion {id templateId : UUID} :
      Accepted s (.requestAssignmentDeletion id templateId) s
  | createWorkspace {id templateId memberId : UUID} {payload : WorkspaceFields} {i : Instance}
      {m : Member} {t : Template} {parameters : List (String × String)}
      (row : s.instances.lookup id = some i) (settled : i.status = .success)
      (source : s.templates.lookup templateId = some t)
      (owner : s.members.lookup memberId = some m) (own : m.instanceId = id)
      (joined : m.status = .success) (deployed : s.Deployed templateId id)
      (image : ∃ i, s.images.lookup payload.imageId = some i ∧ i.templateId = templateId)
      (modules : ∀ m ∈ payload.modules, m ∈ t.modules)
      (resolved : resolveParameters (s.userParameters templateId) payload.parameters none =
        .ok parameters) :
      Accepted s (.createWorkspace id templateId memberId payload) { s with
        nextId := s.nextId + 2
        jobs := s.jobs.insert (s.nextId + 1) {
          name := .workspaceCreate, taskName := StepName.workspaceCreateStep01.task
          resourceType := some .workspace, resourceId := some s.nextId
          step := .workspaceCreateStep01, status := .pending, attempt := 0, claimedAt := none
          createdAt := s.now }
        workspaces := s.workspaces.insert s.nextId {
          action := .creating, status := .pending, jobId := some (s.nextId + 1)
          step := some .workspaceCreateStep01, name := payload.name, instanceId := id, templateId
          memberId, imageId := payload.imageId, modules := payload.modules, parameters
          parametersRevision := 0, appliedParametersRevision := none, coderWorkspaceId := none
          coderWorkspaceBuildId := none } }
  | updateWorkspace {id : UUID} {payload : WorkspaceFields} {w : Workspace} {i : Instance}
      {t : Template} {workspaces : Table UUID Workspace} {f : Workspace → Workspace}
      (row : s.workspaces.lookup id = some w) (idle : w.status.inProgress = false)
      (place : s.instances.lookup w.instanceId = some i) (settled : i.status = .success)
      (changed : workspaces = s.workspaces.modify id f)
      (same : ∀ w, (f w).toLifecycle = w.toLifecycle ∧ (f w).instanceId = w.instanceId ∧
        (f w).templateId = w.templateId ∧ (f w).memberId = w.memberId ∧
        (f w).coderWorkspaceId = w.coderWorkspaceId)
      (deployed : s.Deployed w.templateId w.instanceId)
      (source : s.templates.lookup w.templateId = some t)
      (image : ∃ i, s.images.lookup payload.imageId = some i ∧ i.templateId = w.templateId)
      (modules : ∀ m ∈ payload.modules, m ∈ t.modules)
      (edited : ∀ w, (f w).imageId = payload.imageId ∧ (f w).modules = payload.modules)
      (resolved : ∃ parameters, resolveParameters (s.userParameters w.templateId) payload.parameters
        (some w.parameters) = .ok parameters ∧ f = fun w => { w with
          name := payload.name, imageId := payload.imageId, modules := payload.modules
          parameters := if sameParameters w.parameters parameters then w.parameters else parameters
          parametersRevision := if sameParameters w.parameters parameters then w.parametersRevision
            else w.parametersRevision + 1 }) :
      Accepted s (.updateWorkspace id payload) (Store.stageJob { s with workspaces }
        .workspaceUpdate .updating .workspace id .workspaceUpdateStep01).2
  | keepWorkspace {id : UUID} {payload : WorkspaceFields} :
      Accepted s (.updateWorkspace id payload) s
  | requestWorkspaceDeletion {id : UUID} {w : Workspace} {i : Instance}
      (row : s.workspaces.lookup id = some w) (idle : w.status.inProgress = false)
      (place : s.instances.lookup w.instanceId = some i) (settled : i.status = .success)
      (deployed : s.Deployed w.templateId w.instanceId) :
      Accepted s (.requestWorkspaceDeletion id)
        (s.stageJob .workspaceDelete .deleting .workspace id .workspaceDeleteStep01).2

namespace Request
variable {s s' : Store}

theorem commit_eq_ok {α : Type} {x : Except RequestError (α × Store)} :
    (do return (← x).2) = .ok s' ↔ ∃ a, x = .ok (a, s') := by
  rw [bind_eq_ok]
  constructor
  · rintro ⟨⟨a, s₁⟩, hx, h⟩
    exact ⟨a, by rw [hx, ← pure_eq_ok.mp h]⟩
  · rintro ⟨a, hx⟩
    exact ⟨(a, s'), hx, rfl⟩

theorem createInstance_accepted {application : String} {slug : InstanceSlug} {j : UUID}
    (h : s.createInstance application slug.text = .ok (j, s')) :
    Accepted s (.createInstance application slug) s' := by
  simp only [Store.createInstance, bind_eq_ok, pure_eq_ok, present_eq_ok, require_eq_ok,
    Store.drawId, Store.addJobExecution, Prod.mk.injEq] at h
  obtain ⟨⟨databaseId, d⟩, hd, -, hslug, -, -, -, rfl⟩ := h
  refine .createInstance hd fun id i hi heq => ?_
  simp only [Bool.not_eq_true', Table.any_eq_false, beq_eq_false_iff_ne] at hslug
  exact hslug id i hi heq

theorem requestInstanceDeletion_accepted {id j : UUID}
    (h : s.requestInstanceDeletion id = .ok (j, s')) :
    Accepted s (.requestInstanceDeletion id) s' := by
  simp only [Store.requestInstanceDeletion, bind_eq_ok, pure_eq_ok, present_eq_ok, require_eq_ok,
    Bool.not_eq_true', Store.hasActiveTemplateAssignment_eq_false] at h
  obtain ⟨i, hi, -, hun, -, hstate, hs'⟩ := h
  obtain rfl : _ = s' := congrArg Prod.snd hs'
  refine .requestInstanceDeletion hi hun ?_ ?_ ?_
  · simp only [Bool.or_eq_true, Bool.and_eq_true, beq_iff_eq] at hstate
    rcases hstate with ⟨-, h⟩ | h
    · exact .inl h
    · exact .inr h
  · rintro hdel
    simp [hdel] at hstate
  · by_cases hskip : i.action = .creating ∧ i.status = .error ∧ i.passwordEnc = none
    · obtain ⟨ha, hst, hp⟩ := hskip
      exact .inl ⟨by simp [ha, hst, hp], ha, hst, hp⟩
    · refine .inr ⟨if_neg ?_, hskip⟩
      simpa [and_assoc] using hskip

theorem requestSync_accepted {id j : UUID} (h : s.requestSync id = .ok (j, s')) :
    Accepted s (.requestSync id) s' := by
  simp only [Store.requestSync, bind_eq_ok, pure_eq_ok] at h
  obtain ⟨i, hi, hs'⟩ := h
  obtain rfl : _ = s' := congrArg Prod.snd hs'
  exact .requestSync (Store.requireIdleInstance_ok hi) rfl

theorem requestStart_accepted {id j : UUID} (h : s.requestStart id = .ok (j, s')) :
    Accepted s (.requestStart id) s' := by
  simp only [Store.requestStart, Store.requestPowerAction, bind_eq_ok, pure_eq_ok] at h
  obtain ⟨i, hi, hs'⟩ := h
  obtain rfl : _ = s' := congrArg Prod.snd hs'
  exact .requestStart (Store.requireIdleInstance_ok hi)

theorem requestStop_accepted {id j : UUID} (h : s.requestStop id = .ok (j, s')) :
    Accepted s (.requestStop id) s' := by
  simp only [Store.requestStop, Store.requestPowerAction, bind_eq_ok, pure_eq_ok] at h
  obtain ⟨i, hi, hs'⟩ := h
  obtain rfl : _ = s' := congrArg Prod.snd hs'
  exact .requestStop (Store.requireIdleInstance_ok hi)

theorem createKubernetesProvider_accepted {id j : UUID} {kubeconfig : String}
    (h : s.createKubernetesProvider id kubeconfig = .ok (j, s')) :
    Accepted s (.createKubernetesProvider id kubeconfig) s' := by
  simp only [Store.createKubernetesProvider, bind_eq_ok, pure_eq_ok, present_eq_ok, require_eq_ok,
    beq_iff_eq, Option.isNone_iff_eq_none] at h
  obtain ⟨i, hi, -, hst, -, hnone, hs'⟩ := h
  obtain rfl : _ = s' := congrArg Prod.snd hs'
  exact .createKubernetesProvider hi hst hnone rfl

theorem createDatabase_accepted {payload : DatabaseFields} {password : String} {j : UUID}
    (h : s.createDatabase payload password = .ok (j, s')) :
    Accepted s (.createDatabase payload password) s' := by
  simp only [Store.createDatabase, Store.drawId, bind_eq_ok, pure_eq_ok, Prod.mk.injEq] at h
  obtain ⟨-, -, -, rfl⟩ := h
  exact .createDatabase rfl

theorem updateDatabase_accepted {id j : UUID} {payload : DatabaseFields} {password : Option String}
    (h : s.updateDatabase id payload password = .ok (j, s')) :
    Accepted s (.updateDatabase id payload password) s' := by
  simp only [Store.updateDatabase, bind_eq_ok, pure_eq_ok, present_eq_ok, Prod.mk.injEq] at h
  obtain ⟨d, hd, -, -, -, -, -, rfl⟩ := h
  refine .updateDatabase hd ?_
  cases password with
  | none => exact .inl rfl
  | some value => exact .inr ⟨value, rfl⟩

theorem deleteDatabase_accepted {id j : UUID} (h : s.deleteDatabase id = .ok (j, s')) :
    Accepted s (.deleteDatabase id) s' := by
  simp only [Store.deleteDatabase, bind_eq_ok, pure_eq_ok, require_eq_ok, Bool.not_eq_true',
    Table.any_eq_false, beq_eq_false_iff_ne, Prod.mk.injEq] at h
  obtain ⟨-, -, -, hun, -, rfl⟩ := h
  exact .deleteDatabase hun

theorem createMember_accepted {id j : UUID} {username : String} {role : MemberRole}
    (h : s.createMember id username role = .ok (j, s')) :
    Accepted s (.createMember id username role) s' := by
  simp only [Store.createMember, Store.drawId, bind_eq_ok, pure_eq_ok, require_eq_ok,
    Bool.not_eq_true', Table.any_eq_false, Prod.mk.injEq] at h
  obtain ⟨i, hi, -, hfree, -, rfl⟩ := h
  refine .createMember (Store.lockAvailableMemberInstance_ok hi) (fun memberId m hm hid => ?_) rfl
  simpa [hid] using hfree memberId m hm

theorem updateMemberRole_accepted {id member : UUID} {role : MemberRole} {r : UUID × Bool}
    (h : s.updateMemberRole id member role = .ok (r, s')) :
    Accepted s (.updateMemberRole id member role) s' := by
  simp only [Store.updateMemberRole, bind_eq_ok, require_eq_ok, beq_iff_eq] at h
  obtain ⟨i, hi, m, hm, -, hst, h⟩ := h
  obtain ⟨hrow, hown⟩ := Store.lockMember_ok hm
  split at h
  · cases h
    exact .keepMemberRole
  · simp only [pure_eq_ok, Prod.mk.injEq] at h
    rw [← h.2]
    exact .updateMemberRole (Store.lockAvailableMemberInstance_ok hi) hrow hown hst rfl

theorem requestMemberDeletion_accepted {id member j : UUID} {protectedUsernames : List String}
    (h : s.requestMemberDeletion id member protectedUsernames = .ok (j, s')) :
    Accepted s (.requestMemberDeletion id member protectedUsernames) s' := by
  simp only [Store.requestMemberDeletion, bind_eq_ok, pure_eq_ok, require_eq_ok, beq_iff_eq,
    Bool.not_eq_true', Table.any_eq_false, beq_eq_false_iff_ne, Prod.mk.injEq] at h
  obtain ⟨i, hi, m, hm, -, -, -, hst, -, hun, -, rfl⟩ := h
  obtain ⟨hrow, hown⟩ := Store.lockMember_ok hm
  exact .requestMemberDeletion (Store.lockAvailableMemberInstance_ok hi) hrow hown hst hun rfl

theorem createTemplate_accepted {name : String} {payload : TemplateFields} {j : UUID}
    (h : s.createTemplate name payload = .ok (j, s')) :
    Accepted s (.createTemplate name payload) s' := by
  simp only [Store.createTemplate, Store.drawId, bind_eq_ok, pure_eq_ok, require_eq_ok,
    Bool.not_eq_true', Table.any_eq_false, beq_eq_false_iff_ne, Prod.mk.injEq] at h
  obtain ⟨-, hfree, -, rfl⟩ := h
  exact .createTemplate hfree rfl

theorem updateTemplate_accepted {id j : UUID} {payload : TemplateFields}
    (h : s.updateTemplate id payload = .ok (j, s')) : Accepted s (.updateTemplate id payload) s' := by
  simp only [Store.updateTemplate, bind_eq_ok, present_eq_ok, require_eq_ok, Bool.not_eq_true',
    Status.isActive_eq_false, Store.hasActiveAssignment_eq_false,
    Store.hasActiveWorkspace_eq_false] at h
  obtain ⟨t, ht, -, hst, -, hass, -, hquiet, h⟩ := h
  split at h
  · cases h
    exact .keepTemplate
  · simp only [bind_eq_ok, pure_eq_ok, require_eq_ok, Bool.not_eq_true', Table.any_eq_false,
      Prod.mk.injEq] at h
    obtain ⟨-, hcompatible, -, rfl⟩ := h
    refine .updateTemplate ⟨ht, hst, hass⟩ hquiet fun wid w hw hwt m hm => ?_
    have hall := hcompatible wid w hw
    simp only [hwt, beq_self_eq_true, Bool.true_and, Bool.not_eq_false', List.all_eq_true,
      List.contains_iff_mem] at hall
    exact hall m hm

theorem deleteTemplate_accepted {id j : UUID} (h : s.deleteTemplate id = .ok (j, s')) :
    Accepted s (.deleteTemplate id) s' := by
  simp only [Store.deleteTemplate, bind_eq_ok, pure_eq_ok, present_eq_ok, require_eq_ok,
    Bool.not_eq_true', Status.isActive_eq_false, Table.any_eq_false, beq_eq_false_iff_ne,
    Prod.mk.injEq] at h
  obtain ⟨t, ht, -, hst, -, hass, -, hws, -, rfl⟩ := h
  exact .deleteTemplate ht hst hass hws (by simp) (by simp) (by simp)

theorem requestTemplateSync_accepted {id j : UUID} (h : s.requestTemplateSync id = .ok (j, s')) :
    Accepted s (.requestTemplateSync id) s' := by
  simp only [Store.requestTemplateSync, bind_eq_ok, pure_eq_ok, present_eq_ok, require_eq_ok,
    Bool.not_eq_true', Status.isActive_eq_false, Store.hasActiveAssignment_eq_false,
    Store.hasActiveWorkspace_eq_false] at h
  obtain ⟨t, ht, -, hst, -, hass, -, hquiet, hs'⟩ := h
  obtain rfl : _ = s' := congrArg Prod.snd hs'
  exact .requestTemplateSync ⟨ht, hst, hass⟩ hquiet

theorem createImage_accepted {id j : UUID} {registry name version : String}
    (h : s.createImage id registry name version = .ok (j, s')) :
    Accepted s (.createImage id registry name version) s' := by
  simp only [Store.createImage, Store.drawId, bind_eq_ok, pure_eq_ok, Prod.mk.injEq] at h
  obtain ⟨-, -, -, -, -, rfl⟩ := h
  exact .createImage rfl

theorem deleteImage_accepted {id image j : UUID} (h : s.deleteImage id image = .ok (j, s')) :
    Accepted s (.deleteImage id image) s' := by
  simp only [Store.deleteImage, bind_eq_ok, pure_eq_ok, require_eq_ok, Bool.not_eq_true',
    Table.any_eq_false, beq_eq_false_iff_ne, Prod.mk.injEq] at h
  obtain ⟨-, -, -, -, -, -, -, hunused, -, rfl⟩ := h
  exact .deleteImage hunused rfl

theorem createParameter_accepted {id j : UUID} {name displayName description : String}
    {value : ParameterValue}
    (h : s.createParameter id name displayName description value = .ok (j, s')) :
    Accepted s (.createParameter id name displayName description value) s' := by
  simp only [Store.createParameter, Store.drawId, bind_eq_ok, require_eq_ok, Bool.not_eq_true',
    Table.any_eq_false] at h
  obtain ⟨t, ht, -, hfree, h⟩ := h
  have calm := Store.lockParameterTemplate_ok ht
  cases value with
  | user required mutable defaultValue =>
      simp only [pure_eq_ok, Prod.mk.injEq] at h
      rw [← h.2]
      refine .createUserParameter calm fun parameterId p hp hid => ?_
      simpa [hid] using hfree parameterId p hp
  | system value =>
      simp only [pure_eq_ok, Prod.mk.injEq] at h
      rw [← h.2]
      refine .createSystemParameter calm fun parameterId p hp hid => ?_
      simpa [hid] using hfree parameterId p hp

theorem updateParameter_accepted {id parameter j : UUID} {displayName description : String}
    {update : ParameterUpdate}
    (h : s.updateParameter id parameter displayName description update = .ok (j, s')) :
    Accepted s (.updateParameter id parameter displayName description update) s' := by
  simp only [Store.updateParameter, bind_eq_ok] at h
  obtain ⟨t, ht, p, hp, h⟩ := h
  have calm := Store.lockParameterTemplate_ok ht
  obtain ⟨hrow, hown⟩ := Store.lockParameter_ok hp
  cases htype : p.type with
  | user =>
      cases update with
      | user required mutable defaultValue =>
          simp only [htype, pure_eq_ok, Prod.mk.injEq] at h
          rw [← h.2]
          exact .updateParameter calm hrow hown ⟨rfl, htype.symm, rfl⟩
      | system value => simp [htype, throw_eq_ok] at h
  | system =>
      cases update with
      | user required mutable defaultValue => simp [htype, throw_eq_ok] at h
      | system value =>
          have kept := @Accepted.updateParameter s id parameter displayName description
            (.system value) p { p with type := .system, displayName, description } t calm hrow hown
            ⟨rfl, htype.symm, rfl⟩
          cases value with
          | none =>
              simp only [htype, pure_eq_ok, Prod.mk.injEq] at h
              exact h.2 ▸ kept
          | some value =>
              simp only [htype] at h
              split at h
              · simp only [pure_eq_ok, Prod.mk.injEq] at h
                rw [← h.2]
                exact .updateSystemValue calm hrow hown htype ⟨rfl, htype.symm, rfl⟩
              · split at h
                · cases h
                · split at h
                  · simp only [pure_eq_ok, Prod.mk.injEq] at h
                    exact h.2 ▸ kept
                  · simp only [pure_eq_ok, Prod.mk.injEq] at h
                    rw [← h.2]
                    exact .updateSystemValue calm hrow hown htype ⟨rfl, htype.symm, rfl⟩

theorem deleteParameter_accepted {id parameter j : UUID}
    (h : s.deleteParameter id parameter = .ok (j, s')) :
    Accepted s (.deleteParameter id parameter) s' := by
  simp only [Store.deleteParameter, bind_eq_ok, pure_eq_ok, Prod.mk.injEq] at h
  obtain ⟨t, ht, p, hp, -, rfl⟩ := h
  have calm := Store.lockParameterTemplate_ok ht
  obtain ⟨hrow, hown⟩ := Store.lockParameter_ok hp
  cases htype : p.type with
  | user => exact .deleteUserParameter calm hrow hown htype
  | system => exact .deleteSystemParameter calm hrow hown htype

theorem putAssignment_accepted {id template : UUID} {r : UUID × Bool}
    (h : s.putAssignment id template = .ok (r, s')) :
    Accepted s (.putAssignment id template) s' := by
  simp only [Store.putAssignment, bind_eq_ok, present_eq_ok] at h
  obtain ⟨i, hi, t, ht, u, hav, h⟩ := h
  obtain ⟨hstate, hst, htst⟩ := Store.requireMutationAvailable_ok hav
  split at h
  · rename_i hnone
    simp only [Store.drawId, Store.addJobExecution, pure_eq_ok, Prod.mk.injEq] at h
    rw [← h.2]
    exact .putAssignment ⟨i, t, hi, ht, hstate, hst, htst⟩ hnone
  · split at h
    · simp only [pure_eq_ok, Prod.mk.injEq] at h
      rw [← h.2]
      exact .keepAssignment
    · split at h
      · simp only [bind_eq_ok, pure_eq_ok, Prod.mk.injEq] at h
        obtain ⟨-, -, -, rfl⟩ := h
        exact .keepAssignment
      · cases h

theorem requestAssignmentDeletion_accepted {id template : UUID} {r : Option UUID × Bool}
    (h : s.requestAssignmentDeletion id template = .ok (r, s')) :
    Accepted s (.requestAssignmentDeletion id template) s' := by
  simp only [Store.requestAssignmentDeletion, bind_eq_ok, present_eq_ok] at h
  obtain ⟨i, hi, t, ht, h⟩ := h
  split at h
  · simp only [pure_eq_ok, Prod.mk.injEq] at h
    rw [← h.2]
    exact .keepAssignmentDeletion
  · rename_i assignmentId a hfind
    simp only [bind_eq_ok] at h
    obtain ⟨u, hav, h⟩ := h
    obtain ⟨hstate, hst, htst⟩ := Store.requireMutationAvailable_ok hav
    obtain ⟨hrow, hmatch⟩ := Table.find?_eq_some hfind
    simp only [Bool.and_eq_true, beq_iff_eq] at hmatch
    split at h
    · simp only [bind_eq_ok, pure_eq_ok, Prod.mk.injEq] at h
      obtain ⟨-, -, -, rfl⟩ := h
      exact .keepAssignmentDeletion
    · simp only [bind_eq_ok, pure_eq_ok, require_eq_ok, Bool.and_eq_true, beq_iff_eq,
        Bool.not_eq_true', Table.any_eq_false, Prod.mk.injEq] at h
      obtain ⟨-, ⟨hact, hast⟩, -, hws, -, rfl⟩ := h
      refine .requestAssignmentDeletion ⟨i, t, hi, ht, hstate, hst, htst⟩ hrow hmatch.1 hmatch.2
        hact hast fun wid w hw hwi hwt => ?_
      simpa [hwi, hwt] using hws wid w hw

theorem lockAvailableWorkspaceInstance_ok {id : UUID} {i : Instance}
    (h : s.lockAvailableWorkspaceInstance id = .ok i) :
    s.instances.lookup id = some i ∧ i.status = .success := by
  simp only [Store.lockAvailableWorkspaceInstance, bind_eq_ok, pure_eq_ok, present_eq_ok,
    require_eq_ok, beq_iff_eq] at h
  obtain ⟨i', hi, -, hst, rfl⟩ := h
  exact ⟨hi, hst⟩

theorem validateImage_ok {imageId templateId : UUID} {u : Unit}
    (h : s.validateImage imageId templateId = .ok u) :
    ∃ i, s.images.lookup imageId = some i ∧ i.templateId = templateId := by
  simp only [Store.validateImage, bind_eq_ok, present_eq_ok, require_eq_ok, beq_iff_eq] at h
  exact h

theorem validateModules_ok {t : Template} {modules : List String} {u : Unit}
    (h : Store.validateModules t modules = .ok u) : ∀ m ∈ modules, m ∈ t.modules := by
  simpa [Store.validateModules, require_eq_ok] using h

theorem createWorkspace_accepted {id template member j : UUID} {payload : WorkspaceFields}
    (h : s.createWorkspace id template member payload = .ok (j, s')) :
    Accepted s (.createWorkspace id template member payload) s' := by
  simp only [Store.createWorkspace, Store.drawId, Store.addJobExecution, Store.validateOwner,
    bind_eq_ok, pure_eq_ok, present_eq_ok, require_eq_ok, Bool.and_eq_true, beq_iff_eq,
    Prod.mk.injEq] at h
  obtain ⟨i, hi, t, ht, _, hdeployed, -, ⟨m, hm, hown, hjoined⟩, _, himage, _, hmodules, parameters,
    hresolved, -, -, -, rfl⟩ := h
  obtain ⟨hrow, hst⟩ := lockAvailableWorkspaceInstance_ok hi
  exact .createWorkspace hrow hst ht hm hown hjoined (Store.requireRemoteTemplate_ok hdeployed)
    (validateImage_ok himage) (validateModules_ok hmodules) hresolved

theorem updateWorkspace_accepted {id : UUID} {payload : WorkspaceFields} {r : UUID × Bool}
    (h : s.updateWorkspace id payload = .ok (r, s')) :
    Accepted s (.updateWorkspace id payload) s' := by
  simp only [Store.updateWorkspace, bind_eq_ok, present_eq_ok, require_eq_ok,
    Bool.not_eq_true'] at h
  obtain ⟨w, hw, -, hidle, i, hi, t, ht, _, hdeployed, _, himage, _, hmodules, parameters, hresolved,
    h⟩ := h
  obtain ⟨hrow, hst⟩ := lockAvailableWorkspaceInstance_ok hi
  split at h
  · simp only [pure_eq_ok, Prod.mk.injEq] at h
    rw [← h.2]
    exact .keepWorkspace
  · simp only [bind_eq_ok, pure_eq_ok, Prod.mk.injEq] at h
    obtain ⟨-, -, -, rfl⟩ := h
    exact .updateWorkspace hw hidle hrow hst rfl (fun w => ⟨rfl, rfl, rfl, rfl, rfl⟩)
      (Store.requireRemoteTemplate_ok hdeployed) ht (validateImage_ok himage)
      (validateModules_ok hmodules) (fun w => ⟨rfl, rfl⟩) ⟨parameters, hresolved, rfl⟩

theorem requestWorkspaceDeletion_accepted {id j : UUID}
    (h : s.requestWorkspaceDeletion id = .ok (j, s')) :
    Accepted s (.requestWorkspaceDeletion id) s' := by
  simp only [Store.requestWorkspaceDeletion, bind_eq_ok, pure_eq_ok, present_eq_ok, require_eq_ok,
    Bool.not_eq_true'] at h
  obtain ⟨w, hw, -, hidle, i, hi, -, -, _, hdeployed, hs'⟩ := h
  obtain ⟨hrow, hst⟩ := lockAvailableWorkspaceInstance_ok hi
  obtain rfl : _ = s' := congrArg Prod.snd hs'
  exact .requestWorkspaceDeletion hw hidle hrow hst (Store.requireRemoteTemplate_ok hdeployed)

/-- Every committed request is one of the listed ones. -/
theorem accepted {r : Request} (h : r.handle s = .ok s') : Accepted s r s' := by
  cases r <;> simp only [handle, commit_eq_ok] at h <;> obtain ⟨a, h⟩ := h
  case createInstance => exact createInstance_accepted h
  case requestInstanceDeletion => exact requestInstanceDeletion_accepted h
  case requestSync => exact requestSync_accepted h
  case requestStart => exact requestStart_accepted h
  case requestStop => exact requestStop_accepted h
  case createKubernetesProvider => exact createKubernetesProvider_accepted h
  case createDatabase => exact createDatabase_accepted h
  case updateDatabase => exact updateDatabase_accepted h
  case deleteDatabase => exact deleteDatabase_accepted h
  case requestDatabaseSync =>
    cases h
    exact .requestDatabaseSync
  case createMember => exact createMember_accepted h
  case updateMemberRole => exact updateMemberRole_accepted h
  case requestMemberDeletion => exact requestMemberDeletion_accepted h
  case createTemplate => exact createTemplate_accepted h
  case updateTemplate => exact updateTemplate_accepted h
  case deleteTemplate => exact deleteTemplate_accepted h
  case requestTemplateSync => exact requestTemplateSync_accepted h
  case createImage => exact createImage_accepted h
  case deleteImage => exact deleteImage_accepted h
  case createParameter => exact createParameter_accepted h
  case updateParameter => exact updateParameter_accepted h
  case deleteParameter => exact deleteParameter_accepted h
  case putAssignment => exact putAssignment_accepted h
  case requestAssignmentDeletion => exact requestAssignmentDeletion_accepted h
  case createWorkspace => exact createWorkspace_accepted h
  case updateWorkspace => exact updateWorkspace_accepted h
  case requestWorkspaceDeletion => exact requestWorkspaceDeletion_accepted h

end Request
end CoderManager
