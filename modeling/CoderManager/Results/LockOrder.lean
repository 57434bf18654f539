import CoderManager.LockSequences
import Mathlib.Tactic.ByContra

/-!
# Circular waits between transactions

The workers document one order for their locks: job, instance, template,
assignment, deployment. The sequences that keep to it cannot wait in a circle.
A workspace request locks its workspace before the parents, against the last
step of an instance deletion, which holds the instance when it deletes the
workspaces.
-/
namespace CoderManager
open Locks

/-- The documented order, with workspaces and members where most statements
reach them: under the instance and its assignments. -/
def RowKind.rank : RowKind → Nat
  | .job => 0
  | .instance => 1
  | .template => 2
  | .templateAssignment => 3
  | .workspace => 4
  | .member => 5
  | .templateDeployment => 6
  | .database => 7

/-- Parents first; rows of one kind by their position in some common order. -/
def LockedRow.Before (position : UUID → Nat) (x y : LockedRow) : Prop :=
  x.kind.rank < y.kind.rank ∨ (x.kind = y.kind ∧ position x.id < position y.id)

namespace LockedRow
variable {position : UUID → Nat}

theorem before_irrefl (x : LockedRow) : ¬Before position x x := by
  rintro (h | ⟨-, h⟩)
  · exact Nat.lt_irrefl _ h
  · exact Nat.lt_irrefl _ h

theorem before_trans (x y z : LockedRow) (hxy : Before position x y) (hyz : Before position y z) :
    Before position x z := by
  rcases hxy with hxy | ⟨hxy, hpos⟩
  · rcases hyz with hyz | ⟨hyz, -⟩
    · exact .inl (Nat.lt_trans hxy hyz)
    · exact .inl (hyz ▸ hxy)
  · rcases hyz with hyz | ⟨hyz, hpos'⟩
    · exact .inl (hxy ▸ hyz)
    · exact .inr ⟨hxy.trans hyz, Nat.lt_trans hpos hpos'⟩

end LockedRow

theorem not_earlyIn_of_pairwise {position : UUID → Nat} {rows : List LockedRow}
    (ordered : rows.Pairwise (LockedRow.Before position)) (row : LockedRow) :
    ¬EarlyIn (LockedRow.Before position) rows row := by
  rintro ⟨later, -, hsub, hbefore⟩
  have hpair := ordered.sublist hsub
  exact hbefore (by simpa using hpair)

/-- A sequence in the order, over the kinds from `low` up to `high`. -/
structure Steady (position : UUID → Nat) (low high : Nat) (rows : List LockedRow) : Prop where
  ordered : rows.Pairwise (LockedRow.Before position)
  within : ∀ row ∈ rows, low ≤ row.kind.rank ∧ row.kind.rank < high

section Steady
variable {position : UUID → Nat} {low mid high : Nat} {rows rows' : List LockedRow}

theorem Steady.nil : Steady position low high [] := ⟨.nil, fun _ h => nomatch h⟩

theorem Steady.append (h : Steady position low mid rows) (h' : Steady position mid high rows')
    (hle : low ≤ mid) (hle' : mid ≤ high) : Steady position low high (rows ++ rows') := by
  constructor
  case ordered =>
    apply List.pairwise_append.mpr
    refine ⟨h.ordered, h'.ordered, fun x hx y hy => .inl ?_⟩
    exact Nat.lt_of_lt_of_le (h.within x hx).2 (h'.within y hy).1
  case within =>
    intro row hrow
    rcases List.mem_append.mp hrow with hrow | hrow
    · have := h.within row hrow
      omega
    · have := h'.within row hrow
      omega

theorem Steady.lockThen {α : Type} {kind : RowKind} {id : UUID} {row : Option α}
    {next : α → List LockedRow} (hlow : low ≤ kind.rank) (hhigh : kind.rank < high)
    (hnext : ∀ a, Steady position (kind.rank + 1) high (next a)) :
    Steady position low high (lockThen kind id row next) := by
  cases row with
  | none => exact .nil
  | some a =>
      constructor
      case ordered =>
        apply List.pairwise_cons.mpr
        exact ⟨fun y hy => .inl ((hnext a).within y hy).1, (hnext a).ordered⟩
      case within =>
        intro y hy
        rcases List.mem_cons.mp hy with rfl | hy
        · exact ⟨hlow, hhigh⟩
        · have := (hnext a).within y hy
          omega

theorem Steady.single {kind : RowKind} {id : UUID} (hlow : low ≤ kind.rank)
    (hhigh : kind.rank < high) : Steady position low high [⟨kind, id⟩] := by
  have hlock : Steady position low high (CoderManager.lockThen kind id (some ()) fun _ => []) :=
    .lockThen hlow hhigh fun _ => .nil
  exact hlock

theorem Steady.passing {ε α : Type} {check : Except ε α} (h : Steady position low high rows) :
    Steady position low high (passing check rows) := by
  cases check with
  | ok a => exact h
  | error e => exact .nil

theorem Steady.ite {p : Prop} [Decidable p] (h : Steady position low high rows)
    (h' : Steady position low high rows') : Steady position low high (if p then rows else rows') := by
  split
  · exact h
  · exact h'

variable {s : Store}

theorem steady_lockInstance {id : UUID} {next : Instance → List LockedRow}
    (hnext : ∀ i, Steady position 2 8 (next i)) : Steady position 0 8 (s.lockInstance id next) :=
  .lockThen (Nat.zero_le _) (by decide) hnext

theorem steady_lockTemplate {id : UUID} {next : Template → List LockedRow} (hlow : low ≤ 2)
    (hnext : ∀ t, Steady position 3 8 (next t)) : Steady position low 8 (s.lockTemplate id next) :=
  .lockThen hlow (by decide) hnext

theorem steady_resourceRow (job : JobExecution) : Steady position 1 8 (s.resourceRow job) := by
  unfold Store.resourceRow
  split
  · rename_i type id htype hid
    cases type with
    | «instance» => exact .lockThen (by decide) (by decide) fun _ => .nil
    | template => exact .lockThen (by decide) (by decide) fun _ => .nil
    | templateAssignment => exact .lockThen (by decide) (by decide) fun _ => .nil
    | workspace => exact .lockThen (by decide) (by decide) fun _ => .nil
  · exact .nil

theorem steady_ownedLocks {claim : ExecutionClaim} {next : JobExecution → List LockedRow}
    (hnext : ∀ job, next job = []) : Steady position 0 8 (s.ownedLocks claim next) := by
  apply Steady.lockThen (Nat.zero_le _) (by decide)
  intro job
  refine .ite ?_ .nil
  cases s.ownedExecution claim with
  | none =>
      rw [List.append_nil]
      exact steady_resourceRow job
  | some owned =>
      simp only [hnext, List.append_nil]
      exact steady_resourceRow job

theorem steady_targetLocks {claim : ExecutionClaim} {assignmentId : UUID}
    {expectedTemplateId : Option UUID} :
    Steady position 0 8 (s.targetLocks claim assignmentId expectedTemplateId) := by
  apply Steady.lockThen (Nat.zero_le _) (by decide)
  intro job
  refine .ite .nil ?_
  split
  · exact .nil
  · rename_i a _
    refine .ite .nil ?_
    have hinstance : Steady position 1 2 (lockThen .instance a.instanceId
        (s.instances.lookup a.instanceId) fun _ => []) :=
      .lockThen (by decide) (by decide) fun _ => .nil
    have htemplate : Steady position 2 3 (lockThen .template a.templateId
        (s.templates.lookup a.templateId) fun _ => []) :=
      .lockThen (by decide) (by decide) fun _ => .nil
    have hassignment : Steady position 3 4 [⟨.templateAssignment, assignmentId⟩] :=
      .single (by decide) (by decide)
    have hdeployment : Steady position 4 8 (passing
        (s.lockOwnedTemplateTarget claim assignmentId expectedTemplateId)
        (lockThen .templateDeployment assignmentId (s.deployments.lookup assignmentId)
          fun _ => [])) :=
      .passing (.lockThen (by decide) (by decide) fun _ => .nil)
    exact ((hinstance.append htemplate (by decide) (by decide)).append hassignment (by decide)
      (by decide)).append hdeployment (by decide) (by decide)

end Steady

def Mutation.writesMembers : Mutation → Bool
  | .failMembers _ => true
  | .deferMembers _ => true
  | _ => false

theorem mutationLocks_eq_nil {s : Store} {m : Mutation} (h : m.writesMembers = false) :
    s.mutationLocks m = [] := by
  cases m with
  | failMembers | deferMembers => cases h
  | _ => rfl

/-- Work whose sequence keeps to the order on any contents: one row of each
kind, parents first. -/
def Work.inOrder : Work → Bool
  | .request (.requestSync _) => false
  | .request (.updateTemplate _ _) => false
  | .request (.deleteTemplate _) => false
  | .request (.requestTemplateSync _) => false
  | .request (.updateWorkspace _ _) => false
  | .request (.requestWorkspaceDeletion _) => false
  | .request _ => true
  | .transaction (.claimMembers _) => false
  | .transaction (.claimCleanup _) => false
  | .transaction (.finalizeUpdate _ _ _) => false
  | .transaction (.removeLocalConfiguration _) => false
  | .transaction (.removeLocalAssignment _ _) => false
  | .transaction (.advanceExecution _ _ _ mutate) => !mutate.writesMembers
  | .transaction (.completeExecution _ mutate _) => !mutate.writesMembers
  | .transaction (.deferExecution _ mutate) => !mutate.writesMembers
  | .transaction (.failExecution _ mutate) => !mutate.writesMembers
  | .transaction _ => true

theorem Work.steady {position : UUID → Nat} (s : Store) (scan : UUID → Nat) {work : Work}
    (h : work.inOrder = true) : Steady position 0 8 (work.locks s scan) := by
  cases work with
  | request r =>
      cases r with
      | requestSync | updateTemplate | deleteTemplate | requestTemplateSync | updateWorkspace
      | requestWorkspaceDeletion => cases h
      | createInstance | createDatabase | updateDatabase | deleteDatabase | requestDatabaseSync
      | createTemplate | deleteImage => exact .nil
      | requestInstanceDeletion | requestStart | requestStop | createKubernetesProvider
      | createMember => exact steady_lockInstance fun _ => .nil
      | updateMemberRole | requestMemberDeletion =>
          exact steady_lockInstance fun _ => .passing (.passing (.single (by decide) (by decide)))
      | createImage | createParameter | updateParameter | deleteParameter =>
          exact steady_lockTemplate (by decide) fun _ => .nil
      | putAssignment =>
          refine steady_lockInstance fun _ => steady_lockTemplate (by decide) fun _ => .passing ?_
          split
          · exact .nil
          · exact .single (by decide) (by decide)
      | requestAssignmentDeletion =>
          refine steady_lockInstance fun _ => steady_lockTemplate (by decide) fun _ => ?_
          split
          · exact .nil
          · exact .single (by decide) (by decide)
      | createWorkspace =>
          refine steady_lockInstance fun _ => .ite .nil ?_
          refine steady_lockTemplate (by decide) fun _ => .passing ?_
          exact .lockThen (by decide) (by decide) fun _ => .nil
  | transaction t =>
      cases t with
      | claimMembers | claimCleanup | finalizeUpdate | removeLocalConfiguration
      | removeLocalAssignment => cases h
      | claimExecution | prepareExecutionRetry =>
          apply Steady.lockThen (Nat.zero_le _) (by decide)
          exact fun job => .ite .nil (steady_resourceRow job)
      | heartbeatExecution | prepareBootstrap | storeStartedApplication
      | storeWorkspaceRemoteIds => exact steady_ownedLocks fun _ => rfl
      | advanceExecution | completeExecution | deferExecution | failExecution =>
          refine steady_ownedLocks fun _ => mutationLocks_eq_nil ?_
          simpa [Work.inOrder] using h
      | recordInstanceState => exact steady_lockInstance fun _ => .nil
      | prepareDeployment | storeTemplateRemoteIds | finishDeployment =>
          exact steady_targetLocks

/-- In every run in which each transaction begins without a clash, no state has
a circular wait. -/
theorem clear_transactions_never_wait_in_a_circle (position : UUID → Nat) (steps : List LockStep)
    (orderly : Ward.Orderly (LockedRow.Before position) .empty (steps.map LockStep.wardStep)) :
    ∀ k, ¬(lockRun (steps.take k)).CircularWait := by
  intro k
  have hfront : ∀ {p : Ward LockedRow} {ls : List (WardStep LockedRow)} (k : Nat),
      p.Orderly (LockedRow.Before position) ls →
      p.Orderly (LockedRow.Before position) (ls.take k) := by
    intro p ls
    induction ls generalizing p with
    | nil => intro k _; simp [Ward.Orderly]
    | cons l ls ih =>
        intro k h
        cases k with
        | zero => trivial
        | succ k => exact ⟨h.1, ih k h.2⟩
  have hspaced := Ward.Spaced.empty.run (hfront k orderly)
  rw [← List.map_take] at hspaced
  exact hspaced.no_circularWait LockedRow.before_irrefl LockedRow.before_trans

def LockStep.inOrder : LockStep → Bool
  | .begin _ _ _ work => work.inOrder
  | _ => true

/-- Any interleaving of work that keeps to the order is orderly. -/
theorem orderly_of_inOrder (position : UUID → Nat) {steps : List LockStep}
    (inOrder : ∀ step ∈ steps, step.inOrder = true) :
    Ward.Orderly (LockedRow.Before position) .empty (steps.map LockStep.wardStep) := by
  apply Ward.orderly_of_inOrder
  · exact fun _ _ h => nomatch h
  · intro step hstep
    obtain ⟨lockStep, hmem, rfl⟩ := List.mem_map.mp hstep
    cases lockStep with
    | begin n s scan work =>
        intro row
        exact not_earlyIn_of_pairwise (Work.steady s scan (inOrder _ hmem)).ordered row
    | take | leave => trivial

/-- What an instance deletion leaves for its last step: the instance under the
running job, and the row of a workspace whose remote side is gone. -/
def lastDeletionStep : Store :=
  { Store.empty with
    nextId := 6
    instances := Tables.Table.empty.insert 0 {
      action := .deleting, status := .running, jobId := some 1, step := some .instanceDeleteStep04
      application := "app", slug := "slug", state := .stopped, passwordEnc := none
      passwordCandidateEnc := none, argocdApplicationName := none }
    jobs := Tables.Table.empty.insert 1 {
      name := .instanceDelete, taskName := StepName.instanceDeleteStep04.task
      resourceType := some .instance, resourceId := some 0, step := .instanceDeleteStep04
      status := .running, attempt := 4, claimedAt := some 0, createdAt := 0 }
    workspaces := Tables.Table.empty.insert 5 {
      action := .creating, status := .success, jobId := none, step := none, name := "dev"
      instanceId := 0, templateId := 2, memberId := 3, imageId := 4, modules := []
      parameters := [], parametersRevision := 0, appliedParametersRevision := none
      coderWorkspaceId := none, coderWorkspaceBuildId := none } }

def lastDeletionClaim : ExecutionClaim :=
  ⟨1, StepName.instanceDeleteStep04.task, .instanceDeleteStep04, 4, some .instance, some 0⟩

/-- The last step of the deletion takes the job and the instance while a request
for the deletion of the workspace takes the workspace. -/
def crossedDeletion : List LockStep :=
  [.begin 0 lastDeletionStep id (.transaction (.removeLocalConfiguration lastDeletionClaim)),
    .begin 1 lastDeletionStep id (.request (.requestWorkspaceDeletion 5)),
    .take 0, .take 0, .take 1]

theorem workspace_deletion_crosses_instance_deletion :
    ¬∀ steps, ¬(lockRun steps).CircularWait := by
  intro h
  apply h crossedDeletion
  have hfirst : (lockRun crossedDeletion).WaitsFor 0 1 :=
    ⟨⟨[⟨.job, 1⟩, ⟨.instance, 0⟩], [⟨.workspace, 5⟩]⟩, ⟨.workspace, 5⟩, [], by decide +kernel,
      rfl, by decide +kernel, by decide⟩
  have hsecond : (lockRun crossedDeletion).WaitsFor 1 0 :=
    ⟨⟨[⟨.workspace, 5⟩], [⟨.instance, 0⟩]⟩, ⟨.instance, 0⟩, [], by decide +kernel, rfl,
      by decide +kernel, by decide⟩
  exact ⟨0, .tail (.single hfirst) hsecond⟩

/-- A heartbeat of the deletion beside a request to start its instance. -/
def heartbeatBesideStart : List LockStep :=
  [.begin 0 lastDeletionStep id (.transaction (.heartbeatExecution lastDeletionClaim)),
    .begin 1 lastDeletionStep id (.request (.requestStart 0)), .take 0, .take 1, .take 0]

theorem heartbeat_beside_start_never_waits_in_a_circle :
    ¬(lockRun heartbeatBesideStart).CircularWait :=
  clear_transactions_never_wait_in_a_circle id heartbeatBesideStart
    (orderly_of_inOrder id (by decide)) 5

end CoderManager
