import CoderManager.Discipline.Rules
import CoderManager.Discipline.Services
import Mathlib.Tactic.ByContra

/-!
# Heartbeats between removals

The loops that delete accounts and that stop or delete workspaces run a heartbeat
before each such request, in every page, round and poll they are in. A worker whose
heartbeat no longer succeeds sends at most the request it was about to send.
-/
namespace CoderManager
open Programs

def Op.isRemoval : {β : Type} → Op β → Bool
  | _, .call c => c.isRemoval
  | _, _ => false

def removesNothing : Protocol Op WorkerError where
  answers := fun _ _ => True
  guard := fun _ o => o.isRemoval = false

/-- What a loop may be given as its heartbeat: it returns or raises as it likes,
but removes nothing itself. -/
structure Callback where
  program : Worker Unit
  harmless : ∀ h, Keeps removesNothing program h

def JustBeaten (callback : Callback) (h : WorkerHistory) : Prop :=
  ∃ beat earlier, h = beat.reverse ++ earlier ∧ Completes callback.program beat ()

def beatsFirst (callback : Callback) : Protocol Op WorkerError where
  answers := fun _ _ => True
  guard := fun h o => o.isRemoval = true → JustBeaten callback h

theorem permits_beatsFirst (callback : Callback) (h : WorkerHistory) :
    Permits (beatsFirst callback) h callback.program where
  routine := by
    intro h' _ β c hc hremoval
    cases c <;> first
      | exact absurd hc Bool.false_ne_true
      | exact absurd hremoval Bool.false_ne_true
  beat := by
    intro h' _
    have hbeat : Keeps (beatsFirst callback) callback.program h' :=
      (callback.harmless h').weaken (fun _ _ _ => trivial) fun _ _ o hharmless hremoval =>
        absurd hremoval (Bool.eq_false_iff.mp hharmless)
    refine hbeat.completes.mono (fun _ h'' hq _ c _ _ => ?_) (fun _ _ _ => trivial)
    obtain ⟨⟨beat, rfl, hbeaten⟩, -⟩ := hq
    exact ⟨beat, h', rfl, hbeaten⟩

section Runs
variable {α : Type} {callback : Callback} {p : Worker α}

/-- Between two removals of one run the heartbeat was called and returned. -/
def Rechecked (callback : Callback) (p : Worker α) : Prop :=
  ∀ run before first between second after, Begins p run →
    run = before ++ first :: (between ++ second :: after) → first.op.isRemoval = true →
    second.op.isRemoval = true →
    ∃ idle beat, between = idle ++ beat ∧ Completes callback.program beat ()

theorem harmless_beat {beat : List WorkerEvent} (h : Completes callback.program beat ())
    {e : WorkerEvent} (he : e ∈ beat) : e.op.isRemoval = false := by
  obtain ⟨before, after, hsplit⟩ := List.append_of_mem he
  exact (callback.harmless []).begins (fun _ _ => trivial) h.begins hsplit

theorem rechecked (keeps : Keeps (beatsFirst callback) p []) : Rechecked callback p := by
  intro run before first between second after started split hfirst hsecond
  have hfollow : run = (before ++ first :: between) ++ second :: after := by
    rw [split, List.append_assoc]
    rfl
  have hbeaten := keeps.begins (fun _ _ => trivial) started hfollow hsecond
  obtain ⟨beat, earlier, hhistory, hbeat⟩ := hbeaten
  have hsplit : before ++ first :: between = earlier.reverse ++ beat := by
    have hreverse := congrArg List.reverse hhistory
    simpa using hreverse
  have houtside : first ∉ beat := fun hmem => by
    rw [harmless_beat hbeat hmem] at hfirst
    cases hfirst
  rcases List.append_eq_append_iff.mp hsplit with ⟨middle, hearlier, hrest⟩ | ⟨middle, hbefore, hrest⟩
  · cases middle with
    | nil =>
        have hmem : first ∈ first :: between := List.mem_cons_self
        rw [hrest] at hmem
        exact absurd hmem houtside
    | cons e middle =>
        obtain ⟨rfl, rfl⟩ := List.cons.inj hrest
        exact ⟨middle, beat, rfl, hbeat⟩
  · refine absurd ?_ houtside
    rw [hrest]
    exact List.mem_append_right _ List.mem_cons_self

/-- Once the claim is not reported as held any more, only the very next operation
may be a removal. -/
def StopsOnceLost (claim : ExecutionClaim) (p : Worker α) : Prop :=
  ∀ run before later, Begins p run → run = before ++ later →
    (⟨.transaction (.heartbeatExecution claim), .ok true⟩ : WorkerEvent) ∉ later →
    ∀ e ∈ later.tail, e.op.isRemoval = false

end Runs

def ownedCallback (claim : ExecutionClaim) (lost : WorkerError) : Callback where
  program := heartbeatOwned claim lost
  harmless := by
    intro h
    refine .bind (.perform rfl) fun owned _ _ => ?_
    cases owned with
    | false => exact .throw _
    | true => exact .pure ()

theorem ownedCallback_beats {claim : ExecutionClaim} {lost : WorkerError} {beat : List WorkerEvent}
    (h : Completes (ownedCallback claim lost).program beat ()) :
    beat = [⟨.transaction (.heartbeatExecution claim), .ok true⟩] := by
  obtain ⟨first, rest, owned, rfl, hasked, hrest⟩ := completes_bind.mp h
  rw [completes_perform.mp hasked]
  cases owned with
  | false => exact hrest.elim
  | true =>
      obtain ⟨rfl, -⟩ := completes_pure.mp hrest
      rfl

theorem stops_once_lost {α : Type} {p : Worker α} {claim : ExecutionClaim} {lost : WorkerError}
    (keeps : Keeps (beatsFirst (ownedCallback claim lost)) p []) : StopsOnceLost claim p := by
  intro run before later started split hlost e he
  by_contra hremoval
  have hremoval : e.op.isRemoval = true := by simpa using hremoval
  cases later with
  | nil => cases he
  | cons next later =>
      obtain ⟨between, after, rfl⟩ := List.append_of_mem he
      have hfollow : run = (before ++ next :: between) ++ e :: after := by
        rw [split, List.append_assoc]
        rfl
      have hbeaten := keeps.begins (fun _ _ => trivial) started hfollow hremoval
      obtain ⟨beat, earlier, hhistory, hbeat⟩ := hbeaten
      rw [ownedCallback_beats hbeat] at hhistory
      have hlast : before ++ next :: between =
          earlier.reverse ++ [⟨.transaction (.heartbeatExecution claim), .ok true⟩] := by
        have hreverse := congrArg List.reverse hhistory
        simpa using hreverse
      -- the heartbeat stands last before the removal, so after the claim was lost
      have hmem : (⟨.transaction (.heartbeatExecution claim), .ok true⟩ : WorkerEvent) ∈
          next :: between := by
        have hget := congrArg List.getLast? hlast
        rw [List.getLast?_append_of_ne_nil _ (List.cons_ne_nil _ _),
          List.getLast?_concat] at hget
        exact List.mem_of_getLast? hget
      exact hlost (by simpa using List.mem_append_left (e :: after) hmem)

section Services
variable (url : InstanceUrl) (password : String) (expectedUsernames : List String)
  (templateId : UUID) (fuel : Nat)

theorem cleanupUserAccounts_beats (callback : Callback) : Keeps (beatsFirst callback)
    (Coder.cleanupUserAccounts url password expectedUsernames callback.program) [] :=
  Coder.cleanupUserAccounts_keeps (permits_beatsFirst callback []) password expectedUsernames

theorem stopActiveWorkspaces_beats (callback : Callback) : Keeps (beatsFirst callback)
    (Coder.stopActiveWorkspaces url password callback.program fuel) [] :=
  Coder.stopActiveWorkspaces_keeps (permits_beatsFirst callback []) password fuel

theorem deleteAllWorkspaces_beats (callback : Callback) : Keeps (beatsFirst callback)
    (Coder.deleteAllWorkspaces url password callback.program fuel) [] :=
  Coder.deleteAllWorkspaces_keeps (permits_beatsFirst callback []) password fuel

theorem deleteTemplateWorkspaces_beats (callback : Callback) : Keeps (beatsFirst callback)
    (Coder.deleteTemplateWorkspaces url password templateId callback.program fuel) [] :=
  Coder.deleteTemplateWorkspaces_keeps (permits_beatsFirst callback []) password templateId fuel

/-- Between two removals of one call its heartbeat was called and returned, so a
call whose claim is lost sends at most the removal it was about to send. -/
theorem removals_rechecked :
    (∀ callback : Callback,
      Rechecked callback (Coder.cleanupUserAccounts url password expectedUsernames callback.program) ∧
      Rechecked callback (Coder.stopActiveWorkspaces url password callback.program fuel) ∧
      Rechecked callback (Coder.deleteAllWorkspaces url password callback.program fuel) ∧
      Rechecked callback
        (Coder.deleteTemplateWorkspaces url password templateId callback.program fuel)) ∧
    ∀ claim lost,
      StopsOnceLost claim
        (Coder.cleanupUserAccounts url password expectedUsernames (heartbeatOwned claim lost)) ∧
      StopsOnceLost claim
        (Coder.stopActiveWorkspaces url password (heartbeatOwned claim lost) fuel) ∧
      StopsOnceLost claim
        (Coder.deleteAllWorkspaces url password (heartbeatOwned claim lost) fuel) ∧
      StopsOnceLost claim (Coder.deleteTemplateWorkspaces url password templateId
        (heartbeatOwned claim lost) fuel) := by
  constructor
  · intro callback
    exact ⟨rechecked (cleanupUserAccounts_beats _ _ _ callback),
      rechecked (stopActiveWorkspaces_beats _ _ _ callback),
      rechecked (deleteAllWorkspaces_beats _ _ _ callback),
      rechecked (deleteTemplateWorkspaces_beats _ _ _ _ callback)⟩
  · intro claim lost
    exact ⟨stops_once_lost (cleanupUserAccounts_beats _ _ _ (ownedCallback claim lost)),
      stops_once_lost (stopActiveWorkspaces_beats _ _ _ (ownedCallback claim lost)),
      stops_once_lost (deleteAllWorkspaces_beats _ _ _ (ownedCallback claim lost)),
      stops_once_lost (deleteTemplateWorkspaces_beats _ _ _ _ (ownedCallback claim lost))⟩

end Services
end CoderManager
