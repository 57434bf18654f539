import CoderManager.Discipline.Services
import CoderManager.Domains.ArgoCd
import CoderManager.Refinement.Lifecycles
import CoderManager.Results.AttemptFencing
import Mathlib.Data.List.Dedup

/-!
# Account cleanup

The second step of an update deletes the remote accounts nothing refers to. What it
keeps comes from three places: the static administrator, the configured default
administrators, and the member rows as this attempt found them when it claimed them.
-/
namespace CoderManager
open Programs Tables

namespace Tasks

end Tasks

def Op.deletedAccount? : {β : Type} → Op β → Option String
  | _, .call (.deleteUser _ username) => some username
  | _, _ => none

def deletedAccounts (run : List WorkerEvent) : List String :=
  run.filterMap fun e => e.op.deletedAccount?

/-- A request to another system was answered, and a heartbeat found the claim still
held. Sending the next step to the broker is no such request. -/
def Op.succeeded : {β : Type} → Op β → Except WorkerError β → Prop
  | _, .call (.delay _ _), _ => True
  | _, .call _, result => ∃ answer, result = .ok answer
  | _, .transaction (.heartbeatExecution _), result => result = .ok true
  | _, _, _ => True

/-- Nobody's account: neither an administrator's nor that of a member row, unless the
member is being deleted and is claimed by the cleanup. -/
def Orphan (s : Store) (instanceId : UUID) (admins : List String) (username : String) : Prop :=
  username ≠ ArgoCd.adminUsername ∧ username ∉ admins ∧
    ∀ id m, s.members.lookup id = some m → m.instanceId = instanceId → m.username = username →
      m.action = .deleting ∧ (m.status = .running ∨ m.status = .error)

section Orphans
variable {s s' : Store} {claim : ExecutionClaim} {claimed : ClaimedCleanup} {instanceId : UUID}
  {admins : List String} {username : String}

/-- What a cleanup deletes, given the accounts it was told of. -/
def orphaned (names expected : List String) : List String :=
  (names.dedup.filter fun u => !expected.contains u).insertionSort (· ≤ ·)

end Orphans

section Members
variable {s s' : Store}

end Members

def listed (url : InstanceUrl) (names : List String) : WorkerEvent :=
  ⟨.call (.usernames url), .ok names⟩

def Op.isFinal : {β : Type} → Op β → Bool
  | _, .transaction (.finalizeUpdate _ _ _) => true
  | _, _ => false

/-- The members are not finalized yet. -/
def Unfinished (h : WorkerHistory) : Prop := ∀ e ∈ h, e.op.isFinal = false

/-- Nothing went wrong so far, and no account was listed or deleted. -/
structure Starting (h : WorkerHistory) : Prop where
  unfinished : Unfinished h
  succeeded : ∀ e ∈ h, e.op.succeeded e.result
  unlisted : ∀ url names, listed url names ∉ h
  kept : deletedAccounts h = []

/-- Nothing went wrong so far, and of the listed accounts these are deleted. -/
structure Deleting (names deleted : List String) (h : WorkerHistory) : Prop where
  unfinished : Unfinished h
  succeeded : ∀ e ∈ h, e.op.succeeded e.result
  listed : ∃ url, listed url names ∈ h
  only : ∀ url names', CoderManager.listed url names' ∈ h → names' = names
  deleted : (deletedAccounts h).reverse = deleted

/-- When nothing went wrong, exactly the orphans among the listed accounts were
deleted, each once. -/
def Cleaned (parsed : Except ArgoCdError (List String)) (s : Store) (instanceId : UUID)
    (h : WorkerHistory) : Prop :=
  (∀ e ∈ h, e.op.succeeded e.result) → ∀ url names, listed url names ∈ h →
    ∃ admins, parsed = .ok admins ∧ (deletedAccounts h).Nodup ∧
      ∀ username, username ∈ deletedAccounts h ↔
        username ∈ names ∧ Orphan s instanceId admins username

def Stopped (h : WorkerHistory) : Prop :=
  (∃ e ∈ h, ¬e.op.succeeded e.result) ∨ ∀ url names, listed url names ∉ h

def Op.isAboutAccounts : {β : Type} → Op β → Bool
  | _, .call (.usernames _) | _, .call (.deleteUser _ _) => true
  | _, _ => false

section Histories
variable {parsed : Except ArgoCdError (List String)} {s : Store} {instanceId : UUID}
  {h : WorkerHistory} {e : WorkerEvent} {names deleted : List String}

theorem listed_ne (he : e.op.isAboutAccounts = false) (url : InstanceUrl) (names : List String) :
    listed url names ≠ e := by
  rintro rfl
  cases he

theorem deletedAccounts_other (he : e.op.isAboutAccounts = false) :
    deletedAccounts (e :: h) = deletedAccounts h := by
  refine List.filterMap_cons_none ?_
  obtain ⟨op, result⟩ := e
  cases op with
  | query q | transaction t => rfl
  | call c =>
      cases c with
      | deleteUser => cases he
      | _ => rfl

theorem Unfinished.next (hu : Unfinished h) (he : e.op.isFinal = false) : Unfinished (e :: h) :=
  List.forall_mem_cons.mpr ⟨he, hu⟩

theorem Starting.next (start : Starting h) (he : e.op.isAboutAccounts = false)
    (hf : e.op.isFinal = false) (succeeded : e.op.succeeded e.result) : Starting (e :: h) where
  unfinished := start.unfinished.next hf
  succeeded := List.forall_mem_cons.mpr ⟨succeeded, start.succeeded⟩
  unlisted url names hmem := (List.mem_cons.mp hmem).elim (listed_ne he url names)
    (start.unlisted url names)
  kept := (deletedAccounts_other he).trans start.kept

theorem Starting.listed (start : Starting h) (url : InstanceUrl) (names : List String) :
    Deleting names [] (CoderManager.listed url names :: h) where
  unfinished := start.unfinished.next rfl
  succeeded := List.forall_mem_cons.mpr ⟨⟨names, rfl⟩, start.succeeded⟩
  listed := ⟨url, List.mem_cons_self⟩
  only := by
    intro url' names' hmem
    rcases List.mem_cons.mp hmem with heq | hmem
    · unfold CoderManager.listed at heq
      cases heq
      rfl
    · exact absurd hmem (start.unlisted url' names')
  deleted := congrArg List.reverse start.kept

theorem Deleting.next (deleting : Deleting names deleted h) (he : e.op.isAboutAccounts = false)
    (hf : e.op.isFinal = false) (succeeded : e.op.succeeded e.result) :
    Deleting names deleted (e :: h) where
  unfinished := deleting.unfinished.next hf
  succeeded := List.forall_mem_cons.mpr ⟨succeeded, deleting.succeeded⟩
  listed := deleting.listed.imp fun _ hmem => List.mem_cons_of_mem _ hmem
  only url names' hmem := (List.mem_cons.mp hmem).elim
    (fun heq => absurd heq (listed_ne he url names')) (deleting.only url names')
  deleted := (congrArg List.reverse (deletedAccounts_other he)).trans deleting.deleted

theorem Deleting.delete (deleting : Deleting names deleted h) (url : InstanceUrl)
    (username : String) :
    Deleting names (deleted ++ [username]) (⟨.call (.deleteUser url username), .ok ()⟩ :: h) where
  unfinished := deleting.unfinished.next rfl
  succeeded := List.forall_mem_cons.mpr ⟨⟨(), rfl⟩, deleting.succeeded⟩
  listed := deleting.listed.imp fun _ hmem => List.mem_cons_of_mem _ hmem
  only url' names' hmem := by
    rcases List.mem_cons.mp hmem with heq | hmem
    · exact Bool.noConfusion
        (congrArg (fun e : WorkerEvent => e.op.deletedAccount?.isSome) heq)
    · exact deleting.only url' names' hmem
  deleted := (List.reverse_cons).trans (congrArg (· ++ [username]) deleting.deleted)

theorem Deleting.cleaned {admins : List String} (deleting : Deleting names deleted h)
    (hparsed : parsed = .ok admins) (distinct : deleted.Nodup)
    (exactly : ∀ username, username ∈ deleted ↔
      username ∈ names ∧ Orphan s instanceId admins username) :
    Cleaned parsed s instanceId h := by
  intro _ url names' hmem
  obtain rfl := deleting.only url names' hmem
  obtain rfl := deleting.deleted
  refine ⟨admins, hparsed, List.nodup_reverse.mp distinct, fun username => ?_⟩
  rw [← List.mem_reverse]
  exact exactly username

theorem Stopped.next (stopped : Stopped h) (he : e.op.isAboutAccounts = false) :
    Stopped (e :: h) := by
  rcases stopped with ⟨e', he', hfailed⟩ | hunlisted
  · exact .inl ⟨e', List.mem_cons_of_mem _ he', hfailed⟩
  · refine .inr fun url names hmem => ?_
    rcases List.mem_cons.mp hmem with heq | hmem
    · exact listed_ne he url names heq
    · exact hunlisted url names hmem

theorem Starting.stopped (start : Starting h) : Stopped h := .inr start.unlisted

theorem Stopped.cleaned (stopped : Stopped h) : Cleaned parsed s instanceId h := by
  intro succeeded url names hmem
  rcases stopped with ⟨e, he, hfailed⟩ | hunlisted
  · exact absurd (succeeded e he) hfailed
  · exact absurd hmem (hunlisted url names)

theorem Cleaned.next (cleaned : Cleaned parsed s instanceId h)
    (he : e.op.isAboutAccounts = false) : Cleaned parsed s instanceId (e :: h) := by
  intro succeeded url names hmem
  rw [deletedAccounts_other he]
  refine cleaned (fun e' he' => succeeded e' (List.mem_cons_of_mem _ he')) url names ?_
  exact (List.mem_cons.mp hmem).resolve_left (listed_ne he url names)

end Histories

section Services
variable {parsed : Except ArgoCdError (List String)} {s s' : Store} {claim : ExecutionClaim}
  {claimed : ClaimedCleanup} {instanceId : UUID} {h : WorkerHistory} {admins : List String}

end Services

section Attempts
variable {parsed : Except ArgoCdError (List String)} {s : Store} {claim : ExecutionClaim}
  {instanceId : UUID} {h : WorkerHistory}

theorem liftExcept_obeys {P : Protocol Op WorkerError} {α : Type} (x : Except WorkerError α)
    {ok : α → WorkerHistory → Prop} {err : WorkerError → WorkerHistory → Prop}
    (value : ∀ a, x = .ok a → ok a h) (failed : ∀ e, x = .error e → err e h) :
    Obeys P (liftExcept x) h ok err := by
  cases x with
  | ok a => exact value a rfl
  | error e => exact failed e rfl

end Attempts

section Reading
variable {parsed : Except ArgoCdError (List String)} {s : Store} {claim : ExecutionClaim}
  {instanceId : UUID} {attempt : Worker TaskStatus} {events : List WorkerEvent}

end Reading

end CoderManager
