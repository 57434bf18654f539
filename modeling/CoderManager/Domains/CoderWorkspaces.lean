import CoderManager.Domains.WorkspaceService
import CoderManager.Lib.Table

/-!
# A deployment and its workspaces

A deployment that draws every identifier once. A poll finds a build in any status.
-/
namespace CoderManager
open Programs Tables

structure CoderWorkspaces where
  rows : Table UUID RemoteWorkspace
  nextId : UUID
  drawn : ∀ id w, rows.lookup id = some w → id < nextId ∧ w.latest.id < nextId
  apart : ∀ id id' w w', rows.lookup id = some w → rows.lookup id' = some w' →
    w.latest.id = w'.latest.id → id = id'

namespace CoderWorkspaces

def empty : CoderWorkspaces where
  rows := .empty
  nextId := 0
  drawn := by
    intro id w hw
    cases hw
  apart := by
    intro id id' w w' hw
    cases hw

def named (r : CoderWorkspaces) (owner name : String) : Option (UUID × RemoteWorkspace) :=
  r.rows.find? fun _ w => w.owner == owner && w.name == name

def building (r : CoderWorkspaces) (buildId : UUID) : Option (UUID × RemoteWorkspace) :=
  r.rows.find? fun _ w => w.latest.id == buildId

def revise (r : CoderWorkspaces) (id : UUID) (f : RemoteWorkspace → RemoteWorkspace)
    (same : ∀ w, (f w).latest.id = w.latest.id) : CoderWorkspaces where
  rows := r.rows.modify id f
  nextId := r.nextId
  drawn := by
    intro id' w' hw'
    rcases Table.lookup_modify_cases hw' with ⟨rfl, w, hw, rfl⟩ | ⟨-, hw⟩
    · rw [same]
      exact r.drawn _ w hw
    · exact r.drawn id' w' hw
  apart := by
    have old : ∀ id' w', (r.rows.modify id f).lookup id' = some w' →
        ∃ w, r.rows.lookup id' = some w ∧ w'.latest.id = w.latest.id := by
      intro id' w' hw'
      rcases Table.lookup_modify_cases hw' with ⟨rfl, w, hw, rfl⟩ | ⟨-, hw⟩
      · exact ⟨w, hw, same w⟩
      · exact ⟨w', hw, rfl⟩
    intro id₁ id₂ w₁ w₂ h₁ h₂ heq
    obtain ⟨v₁, hv₁, hs₁⟩ := old id₁ w₁ h₁
    obtain ⟨v₂, hv₂, hs₂⟩ := old id₂ w₂ h₂
    exact r.apart id₁ id₂ v₁ v₂ hv₁ hv₂ (hs₁.symm.trans (heq.trans hs₂))

def rename (r : CoderWorkspaces) (id : UUID) (name : String) : CoderWorkspaces :=
  r.revise id (fun w => { w with name }) fun _ => rfl

def observe (r : CoderWorkspaces) (id : UUID) (status : BuildStatus) : CoderWorkspaces :=
  r.revise id (fun w => w.observed status) fun _ => rfl

def erase (r : CoderWorkspaces) (id : UUID) : CoderWorkspaces where
  rows := r.rows.erase id
  nextId := r.nextId
  drawn := fun id' w' hw' => r.drawn id' w' (Table.lookup_erase_some.mp hw').2
  apart := fun id₁ id₂ w₁ w₂ h₁ h₂ => r.apart id₁ id₂ w₁ w₂ (Table.lookup_erase_some.mp h₁).2
    (Table.lookup_erase_some.mp h₂).2

def store (r : CoderWorkspaces) (id : UUID) (w : RemoteWorkspace) (nextId : UUID)
    (later : r.nextId ≤ w.latest.id) (new : id < nextId ∧ w.latest.id < nextId) :
    CoderWorkspaces where
  rows := r.rows.insert id w
  nextId := nextId
  drawn := by
    intro id' w' hw'
    rcases Table.lookup_insert_cases hw' with ⟨rfl, rfl⟩ | ⟨-, hw⟩
    · exact new
    · obtain ⟨hid, hlatest⟩ := r.drawn id' w' hw
      have hle : r.nextId ≤ nextId := Nat.le_of_lt (Nat.lt_of_le_of_lt later new.2)
      exact ⟨Nat.lt_of_lt_of_le hid hle, Nat.lt_of_lt_of_le hlatest hle⟩
  apart := by
    intro id₁ id₂ w₁ w₂ h₁ h₂ heq
    rcases Table.lookup_insert_cases h₁ with ⟨rfl, rfl⟩ | ⟨-, hw₁⟩
    · rcases Table.lookup_insert_cases h₂ with ⟨rfl, -⟩ | ⟨-, hw₂⟩
      · rfl
      · exact absurd (heq ▸ later) (Nat.not_le.mpr (r.drawn id₂ w₂ hw₂).2)
    · rcases Table.lookup_insert_cases h₂ with ⟨rfl, rfl⟩ | ⟨-, hw₂⟩
      · exact absurd (heq ▸ later) (Nat.not_le.mpr (r.drawn id₁ w₁ hw₁).2)
      · exact r.apart id₁ id₂ w₁ w₂ hw₁ hw₂ heq

def create (r : CoderWorkspaces) (owner name : String) (templateId : UUID)
    (parameters : List (String × String)) : CoderWorkspace × CoderWorkspaces :=
  let w : RemoteWorkspace := {
    owner, name, templateId, foreign := false
    latest := ⟨r.nextId + 1, .start, .pending, parameters⟩ }
  (w.view r.nextId, r.store r.nextId w (r.nextId + 2) (Nat.le_succ _)
    ⟨Nat.lt_add_of_pos_right (by decide), Nat.lt_succ_self _⟩)

/-- A build is submitted; without parameters it keeps those of the one before. -/
def submit (r : CoderWorkspaces) (id : UUID) (transition : Transition)
    (parameters : Option (List (String × String))) :
    Except WorkerError CoderWorkspaceBuild × CoderWorkspaces :=
  match h : r.rows.lookup id with
  | none => (.error (.coderRequestError "Coder workspace is missing"), r)
  | some w =>
      let latest : RemoteBuild :=
        ⟨r.nextId, transition, .pending, parameters.getD w.latest.parameters⟩
      (.ok ⟨r.nextId, .pending, transition⟩, r.store id { w with latest } (r.nextId + 1)
        (Nat.le_refl _) ⟨Nat.lt_succ_of_lt (r.drawn id w h).1, Nat.lt_succ_self _⟩)

def serve (r : CoderWorkspaces) :
    {β : Type} → Call β → Option (Except WorkerError β × CoderWorkspaces)
  | _, .authenticatePreparedAdmin _ _ => some (.ok (), r)
  | _, .workspace _ id => some (.ok ((r.rows.lookup id).map (RemoteWorkspace.view id)), r)
  | _, .workspaceByOwnerAndName _ owner name =>
      some (.ok ((r.named owner name).map fun p => p.2.view p.1), r)
  | _, .createWorkspace _ owner name templateId parameters =>
      some (if (r.named owner name).isSome then
          (.error (.coderRequestError "Coder workspace name is taken"), r)
        else (.ok (r.create owner name templateId parameters).1,
          (r.create owner name templateId parameters).2))
  | _, .updateWorkspaceName _ id name => some (.ok (), r.rename id name)
  | _, .workspaceBuildParameters _ buildId =>
      some (match r.building buildId with
        | none => (.error (.coderRequestError "Coder workspace build is missing"), r)
        | some p => (.ok p.2.latest.parameters, r))
  | _, .createWorkspaceStartBuild _ id parameters => some (r.submit id .start (some parameters))
  | _, .createWorkspaceStopBuild _ id => some (r.submit id .stop none)
  | _, .createWorkspaceDeleteBuild _ id => some (r.submit id .delete none)
  | _, _ => none

/-- A poll finds the build in any status. -/
def Serves : Semantics Call WorkerError CoderWorkspaces
  | _, .workspaceBuild _ buildId, r, answer, r' =>
      match r.building buildId with
      | none => answer = .error (.coderRequestError "Coder workspace build is missing") ∧ r' = r
      | some p => ∃ status, answer = .ok ⟨buildId, status, p.2.latest.transition⟩ ∧
          r' = r.observe p.1 status
  | _, c, r, answer, r' => r.serve c = some (answer, r')

def service : WorkspaceService CoderWorkspaces where
  workspace := fun r => r.rows.lookup
  named := fun r owner name => (r.named owner name).map Prod.fst
  answers := Serves

section Lookups
variable {r : CoderWorkspaces} {id : UUID} {w : RemoteWorkspace}

theorem named_some {owner name : String} {p : UUID × RemoteWorkspace}
    (h : r.named owner name = some p) : r.rows.lookup p.1 = some p.2 ∧ p.2.owner = owner ∧
      p.2.name = name := by
  obtain ⟨hrow, hp⟩ := Table.find?_eq_some h
  simp only [Bool.and_eq_true, beq_iff_eq] at hp
  exact ⟨hrow, hp⟩

theorem building_latest (row : r.rows.lookup id = some w) : r.building w.latest.id = some (id, w) := by
  cases h : r.building w.latest.id with
  | none =>
      have hno := Table.find?_eq_none.mp h id w row
      simp at hno
  | some p =>
      obtain ⟨hrow, hp⟩ := Table.find?_eq_some h
      cases r.apart p.1 id p.2 w hrow row (by simpa using hp)
      cases hrow.symm.trans row
      rfl

theorem submit_some (transition : Transition) (parameters : List (String × String))
    (row : r.rows.lookup id = some w) : ∃ r', r.submit id transition (some parameters) =
      (.ok ⟨r.nextId, .pending, transition⟩, r') ∧
      r'.rows.lookup id = some { w with latest := ⟨r.nextId, transition, .pending, parameters⟩ } := by
  unfold submit
  split
  · rename_i h
    rw [row] at h
    cases h
  · rename_i w' h
    cases row.symm.trans h
    exact ⟨_, rfl, Table.lookup_insert_self _ _ _⟩

@[simp] theorem lookup_rename (name : String) : (r.rename id name).rows.lookup id =
    (r.rows.lookup id).map fun w => { w with name } := Table.lookup_modify_self _ _ _

@[simp] theorem lookup_observe (status : BuildStatus) : (r.observe id status).rows.lookup id =
    (r.rows.lookup id).map fun w => w.observed status :=
  Table.lookup_modify_self _ _ _

theorem served {α : Type} {x y : Except WorkerError α × CoderWorkspaces} :
    some x = some y ↔ y.1 = x.1 ∧ y.2 = x.2 := by
  rw [Option.some.injEq, eq_comm, Prod.ext_iff]

end Lookups

/-- The deployment is one an attempt can rely on. -/
instance : service.Lawful where
  named := by
    intro r owner name id h
    obtain ⟨p, hp, rfl⟩ := Option.map_eq_some_iff.mp h
    exact ⟨p.2, named_some hp⟩
  unnamed := by
    intro r owner name h id w row
    have hno := Table.find?_eq_none.mp (Option.map_eq_none_iff.mp h) id w row
    simpa using hno
  apart := fun r => r.apart
  authenticates := by
    intro r r' url password
    refine served.trans ?_
    simp
  readWorkspace := by
    intro r r' url id found
    refine served.trans ?_
    simp [WorkspaceService.view, service]
  readWorkspaceByName := by
    intro r r' url owner name found
    have hfind : (service.named r owner name).bind (service.view r) =
        (r.named owner name).map fun p => p.2.view p.1 := by
      cases h : r.named owner name with
      | none => simp [service, h]
      | some p =>
          simp only [service, h, Option.map_some, Option.bind_some]
          exact congrArg (Option.map (RemoteWorkspace.view p.1)) (named_some h).1
    rw [hfind]
    refine served.trans ?_
    simp
  readParameters := by
    intro r r' url id w parameters row
    refine served.trans ?_
    simp [building_latest row]
  creates := by
    intro r r' url owner name templateId parameters made h
    obtain ⟨hanswer, heffect⟩ := served.mp h
    split at hanswer
    · cases hanswer
    · rename_i hfree
      rw [if_neg hfree] at heffect
      cases hanswer
      obtain rfl : r' = (r.create owner name templateId parameters).2 := heffect
      exact ⟨_, Table.lookup_insert_self _ _ _, rfl, rfl, rfl, by simp [BuildStatus.Failing]⟩
  renames := by
    intro r r' url id w name row h
    obtain ⟨-, rfl⟩ := served.mp h
    exact (lookup_rename name).trans (congrArg _ row)
  starts := by
    intro r r' url id w parameters build row h
    obtain ⟨s, hsubmit, hrow⟩ := submit_some .start parameters row
    obtain ⟨hanswer, rfl⟩ := served.mp h
    rw [hsubmit] at hanswer
    cases hanswer
    exact ⟨rfl, by simp [BuildStatus.Failing], hsubmit ▸ hrow⟩
  polls := by
    intro r r' url id w build row h
    simp only [service, Serves, building_latest row] at h
    obtain ⟨status, hanswer, rfl⟩ := h
    cases hanswer
    exact ⟨rfl, (lookup_observe status).trans (congrArg _ row)⟩
  idles := by
    intro r url id w row
    refine ⟨r.observe id w.latest.status, ?_⟩
    simp only [service, Serves, building_latest row]
    exact ⟨w.latest.status, rfl, rfl⟩

end CoderWorkspaces
end CoderManager
