import CoderManager.Domains.Coder
import CoderManager.Lib.Hoare
import CoderManager.Lib.Paging

/-!
# The daily stop

`submit_active_workspace_stops` lists the workspaces once and submits a stop build for
each one that runs or starts. What fails on the way is kept for the end, so that every
workspace has its turn.
-/
namespace CoderManager
open Programs Paging

def sortedIds (ws : List CoderWorkspace) : List UUID :=
  (ws.map fun w => w.id).insertionSort (· ≤ ·)

/-- Workspaces that do not change while they are listed, status by status and each in
some order, and those among them that cannot be stopped. -/
structure SteadyDeployment where
  workspaces : List CoderWorkspace
  distinct : (workspaces.map fun w => w.id).Nodup
  listing : BuildStatus → List CoderWorkspace
  listed : ∀ status, (listing status).Perm (workspaces.filter fun w => w.status = status)
  refuses : UUID → Bool

namespace SteadyDeployment

/-- A stop submission fails with an error or answers with another transition. -/
def Refused : Except WorkerError CoderWorkspaceBuild → Prop
  | .error _ => True
  | .ok build => build.transition ≠ .stop

def answers (d : SteadyDeployment) : Semantics Op WorkerError (List UUID)
  | _, .call (.authenticatePreparedAdmin _ _), log, answer, log' => answer = .ok () ∧ log' = log
  | _, .call (.workspaces _ (some status) offset limit), log, answer, log' =>
      answer = .ok ⟨((d.listing status).drop offset).take limit, (d.listing status).length⟩ ∧
        log' = log
  | _, .call (.createWorkspaceStopBuild _ id), log, answer, log' =>
      log' = log ++ [id] ∧ (d.refuses id = true ↔ Refused answer)
  | _, _, _, _, _ => True

/-- More than the pages of any status. -/
def rounds (d : SteadyDeployment) : Nat := d.workspaces.length / Coder.workspacePageSize + 1

def due (d : SteadyDeployment) : List UUID :=
  sortedIds (d.workspaces.filter fun w => w.status = .running ∨ w.status = .starting)

def stopping (d : SteadyDeployment) : List UUID :=
  sortedIds (d.workspaces.filter fun w => w.status = .stopping)

/-- The program ends like this, whatever the deployment answers. -/
abbrev Ends {α : Type} (d : SteadyDeployment) (p : Worker α) (log : List UUID)
    (ok : α → List UUID → Prop) (err : WorkerError → List UUID → Prop) : Prop :=
  Upholds d.answers (fun _ => True) False p log ok err

end SteadyDeployment

section Listings

theorem upsert_new {found : List CoderWorkspace} {w : CoderWorkspace}
    (new : w.id ∉ found.map fun f => f.id) : Coder.upsert found w = found ++ [w] := by
  unfold Coder.upsert
  rw [if_neg]
  simp only [List.any_eq_true, beq_iff_eq, not_exists, not_and]
  intro f hf hid
  exact new (List.mem_map.mpr ⟨f, hf, hid⟩)

theorem foldl_upsert_new {found items : List CoderWorkspace}
    (distinct : ((found ++ items).map fun w => w.id).Nodup) :
    items.foldl Coder.upsert found = found ++ items := by
  induction items generalizing found with
  | nil => simp
  | cons w items ih =>
      have hnew : w.id ∉ found.map fun f => f.id := by
        rw [List.map_append, List.map_cons] at distinct
        intro hmem
        exact (List.nodup_append.mp distinct).2.2 _ hmem _ List.mem_cons_self rfl
      rw [List.foldl_cons, upsert_new hnew, ih (by simpa using distinct), List.append_assoc,
        List.singleton_append]

theorem sortedIds_of_perm {ws ws' : List CoderWorkspace} (sorted : ws.Pairwise fun a b => a.id ≤ b.id)
    (perm : ws.Perm ws') : (ws.map fun w => w.id) = sortedIds ws' := by
  have hperm : (ws.map fun w => w.id).Perm (sortedIds ws') :=
    (perm.map _).trans (List.perm_insertionSort _ _).symm
  exact hperm.eq_of_pairwise' (List.pairwise_map.mpr sorted) (List.pairwise_insertionSort _ _)

theorem mem_sortedIds {ws : List CoderWorkspace} {id : UUID} :
    id ∈ sortedIds ws ↔ ∃ w ∈ ws, w.id = id := by
  simp [sortedIds, List.mem_insertionSort]

theorem sortedIds_nodup {ws : List CoderWorkspace} (distinct : (ws.map fun w => w.id).Nodup) :
    (sortedIds ws).Nodup := (List.perm_insertionSort _ _).nodup_iff.mpr distinct

theorem SteadyDeployment.flatMap_listing (d : SteadyDeployment) (statuses : List BuildStatus)
    (distinct : statuses.Nodup) : (statuses.flatMap d.listing).Perm
      (d.workspaces.filter fun w => w.status ∈ statuses) := by
  induction statuses with
  | nil => simp
  | cons status statuses ih =>
      obtain ⟨hnew, hdistinct⟩ := List.nodup_cons.mp distinct
      have hsplit := List.filter_append_perm (fun w : CoderWorkspace => w.status = status)
        (d.workspaces.filter fun w => w.status ∈ status :: statuses)
      rw [List.filter_filter, List.filter_filter] at hsplit
      rw [List.flatMap_cons]
      refine ((d.listed status).append (ih hdistinct)).trans (List.Perm.trans (.of_eq ?_) hsplit)
      congr 1
      · refine List.filter_congr fun w _ => ?_
        by_cases h : w.status = status <;> simp [h]
      · refine List.filter_congr fun w _ => ?_
        by_cases h : w.status = status
        · simp [h, hnew]
        · simp [h]

end Listings

section Scan
variable {d : SteadyDeployment} {url : InstanceUrl} {fuel : Nat} {found : List CoderWorkspace}
  {log : List UUID}

open SteadyDeployment

theorem ends_activePages {status : BuildStatus} {offset : Nat}
    (enough : (d.listing status).length - offset < fuel * Coder.workspacePageSize)
    (distinct : ((found ++ (d.listing status).drop offset).map fun w => w.id).Nodup) :
    d.Ends (Coder.activePages url (pure ()) status fuel offset found) log
      (fun result log' => result = found ++ (d.listing status).drop offset ∧ log' = log)
      (fun _ _ => False) := by
  induction fuel generalizing offset found with
  | zero => simp at enough
  | succ fuel ih =>
      refine upholds_bind.mpr (upholds_pure.mpr (upholds_bind.mpr (upholds_perform.mpr ⟨?_, ?_⟩)))
      · rintro page log' ⟨hpage, rfl⟩
        obtain rfl := Except.ok.inj hpage
        refine ⟨trivial, ?_⟩
        have hsplit := List.take_append_drop Coder.workspacePageSize ((d.listing status).drop offset)
        generalize hitems : ((d.listing status).drop offset).take Coder.workspacePageSize = items
          at hsplit
        have hlength : items.length =
            min Coder.workspacePageSize ((d.listing status).length - offset) := by
          rw [← hitems, List.length_take, List.length_drop]
        rw [List.drop_drop] at hsplit
        have hfound : items.foldl Coder.upsert found = found ++ items := by
          rw [← hsplit, ← List.append_assoc, List.map_append] at distinct
          exact foldl_upsert_new (List.nodup_append.mp distinct).1
        simp only [hfound]
        refine upholds_ite (fun hlast => ?_) fun hmore => ?_
        · refine ⟨?_, rfl⟩
          have hrest : (d.listing status).drop (offset + Coder.workspacePageSize) = [] := by
            apply List.drop_eq_nil_of_le
            omega
          rw [← hsplit, hrest, List.append_nil]
        · have hfull : items.length = Coder.workspacePageSize := by omega
          refine upholds_ite (fun hempty => ?_) fun _ => ?_
          · rw [List.isEmpty_iff.mp hempty] at hfull
            cases hfull
          · rw [hfull]
            rw [← hsplit, ← List.append_assoc] at distinct
            have hleft : (d.listing status).length - (offset + Coder.workspacePageSize) <
                fuel * Coder.workspacePageSize := by
              rw [Nat.succ_mul] at enough
              omega
            refine (ih hleft distinct).mono (fun result log' h => ?_) fun _ _ h => h
            rwa [List.append_assoc, hsplit] at h
      · rintro e log' ⟨hpage, -⟩
        cases hpage

theorem ends_activeWorkspaces (enough : d.workspaces.length < fuel * Coder.workspacePageSize) :
    d.Ends (Coder.activeWorkspaces url (pure ()) fuel) log
      (fun result log' => result =
        Coder.sortedById (Coder.observedWorkspaceStatuses.flatMap d.listing) ∧ log' = log)
      (fun _ _ => False) := by
  -- The passes over the statuses still to come add what these list.
  have hpasses : ∀ statuses found,
      ((found ++ statuses.flatMap d.listing).map fun w => w.id).Nodup →
      d.Ends (foldEach statuses found fun found status =>
        Coder.activePages url (pure ()) status fuel 0 found) log
        (fun result log' => result = found ++ statuses.flatMap d.listing ∧ log' = log)
        (fun _ _ => False) := by
    intro statuses
    induction statuses with
    | nil => exact fun found _ => ⟨by simp, rfl⟩
    | cons status statuses ih =>
        intro found distinct
        rw [List.flatMap_cons, ← List.append_assoc] at distinct
        have hfirst : ((found ++ (d.listing status).drop 0).map fun w => w.id).Nodup := by
          rw [List.map_append] at distinct
          exact (List.nodup_append.mp distinct).1
        have hlength : (d.listing status).length ≤ d.workspaces.length :=
          (d.listed status).length_eq ▸ List.length_filter_le _ _
        refine (ends_activePages (by omega) hfirst).bind ?_ fun _ _ h => h
        rintro result log' ⟨rfl, rfl⟩
        refine (ih _ distinct).mono ?_ fun _ _ h => h
        rintro result log' ⟨rfl, rfl⟩
        exact ⟨by rw [List.flatMap_cons, List.append_assoc], rfl⟩
  refine (hpasses Coder.observedWorkspaceStatuses [] ?_).bind ?_ fun _ _ h => h
  · have hperm := (d.flatMap_listing Coder.observedWorkspaceStatuses (by decide)).map
      fun w => w.id
    exact hperm.nodup_iff.mpr (d.distinct.sublist (List.filter_sublist.map _))
  · rintro result log' ⟨rfl, rfl⟩
    exact ⟨rfl, rfl⟩

end Scan

section Submissions
variable {d : SteadyDeployment} {url : InstanceUrl}

open SteadyDeployment

def stopFailure (failed : List UUID) : WorkerError := .coderRequestError
  ("Coder workspace stop submission failed for: " ++ ", ".intercalate (failed.map toString))

def submitStop (url : InstanceUrl) (acc : Coder.WorkspaceStopSubmissions × List UUID)
    (workspace : CoderWorkspace) : Worker (Coder.WorkspaceStopSubmissions × List UUID) := do
  if workspace.status = .stopping then
    return ({ acc.1 with
      alreadyStoppingIds := acc.1.alreadyStoppingIds ++ [workspace.id] }, acc.2)
  let accepted ← tryCatch
    (do
      let build ← request (.createWorkspaceStopBuild url workspace.id)
      return build.transition == .stop)
    (fun _ => return false)
  if accepted then
    return ({ acc.1 with submittedIds := acc.1.submittedIds ++ [workspace.id] }, acc.2)
  else return (acc.1, acc.2 ++ [workspace.id])

theorem submitActiveWorkspaceStops_eq (url : InstanceUrl) (password : String) (fuel : Nat) :
    Coder.submitActiveWorkspaceStops url password fuel = (do
      request (.authenticatePreparedAdmin url password)
      let active ← Coder.activeWorkspaces url (pure ()) fuel
      let acc ← foldEach active (⟨[], []⟩, []) (submitStop url)
      if acc.2.isEmpty then return acc.1
      else throw (stopFailure acc.2)) := rfl

def SteadyDeployment.record (d : SteadyDeployment)
    (acc : Coder.WorkspaceStopSubmissions × List UUID) (w : CoderWorkspace) :
    Coder.WorkspaceStopSubmissions × List UUID :=
  if w.status = .stopping then
    ({ acc.1 with alreadyStoppingIds := acc.1.alreadyStoppingIds ++ [w.id] }, acc.2)
  else if d.refuses w.id then (acc.1, acc.2 ++ [w.id])
  else ({ acc.1 with submittedIds := acc.1.submittedIds ++ [w.id] }, acc.2)

theorem ends_submitStop (acc : Coder.WorkspaceStopSubmissions × List UUID) (w : CoderWorkspace)
    (log : List UUID) : d.Ends (submitStop url acc w) log
      (fun acc' log' => acc' = d.record acc w ∧
        log' = if w.status = .stopping then log else log ++ [w.id]) (fun _ _ => False) := by
  unfold submitStop SteadyDeployment.record
  refine upholds_ite (fun hstopping => ?_) fun hactive => ?_
  · exact ⟨by rw [if_pos hstopping], by rw [if_pos hstopping]⟩
  · simp only [if_neg hactive]
    refine upholds_bind.mpr (upholds_tryCatch.mpr (upholds_bind.mpr (upholds_perform.mpr ⟨?_, ?_⟩)))
    · rintro build log' ⟨rfl, hrefused⟩
      refine ⟨trivial, ?_⟩
      by_cases hstop : build.transition = .stop
      · have haccepted : d.refuses w.id = false := by
          rw [← Bool.not_eq_true, hrefused]
          exact not_not.mpr hstop
        simp [hstop, haccepted]
      · have hno : (build.transition == Transition.stop) = false := by simpa using hstop
        simp [hno, hrefused.mpr hstop]
    · rintro e log' ⟨rfl, hrefused⟩
      refine ⟨trivial, ?_⟩
      simp [hrefused.mpr trivial]

/-- Every workspace has its turn, whatever failed before it. -/
theorem ends_submissions (active : List CoderWorkspace)
    (acc : Coder.WorkspaceStopSubmissions × List UUID) (log : List UUID) :
    d.Ends (foldEach active acc (submitStop url)) log
      (fun acc' log' => acc' = active.foldl d.record acc ∧ log' = log ++
        (active.filter fun w => w.status ≠ .stopping).map fun w => w.id) (fun _ _ => False) := by
  induction active generalizing acc log with
  | nil => exact ⟨rfl, by simp⟩
  | cons w active ih =>
      refine (ends_submitStop acc w log).bind ?_ fun _ _ h => h
      rintro acc' log' ⟨rfl, rfl⟩
      refine (ih _ _).mono ?_ fun _ _ h => h
      rintro acc' log' ⟨rfl, rfl⟩
      refine ⟨rfl, ?_⟩
      by_cases hstopping : w.status = .stopping <;> simp [hstopping]

theorem foldl_record (active : List CoderWorkspace)
    (acc : Coder.WorkspaceStopSubmissions × List UUID) :
    let asked := (active.filter fun w => w.status ≠ .stopping).map fun w => w.id
    active.foldl d.record acc =
      (⟨acc.1.submittedIds ++ asked.filter (fun id => !d.refuses id), acc.1.alreadyStoppingIds ++
        (active.filter fun w => w.status = .stopping).map fun w => w.id⟩,
        acc.2 ++ asked.filter d.refuses) := by
  induction active generalizing acc with
  | nil => simp
  | cons w active ih =>
      rw [List.foldl_cons, ih]
      unfold SteadyDeployment.record
      by_cases hstopping : w.status = .stopping
      · simp [hstopping]
      · by_cases hrefuses : d.refuses w.id = true <;> simp [hstopping, hrefuses]

end Submissions

/-- The daily stop covers every workspace. -/
theorem daily_stop_covers_every_workspace (d : SteadyDeployment) (url : InstanceUrl)
    (password : String) (more : Nat) :
    (d.due.Nodup ∧ ∀ id, id ∈ d.due ↔ ∃ w ∈ d.workspaces, w.id = id ∧
      (w.status = .running ∨ w.status = .starting)) ∧
    -- Each workspace to stop is submitted once, and the outcome tells what failed.
    d.Ends (Coder.submitActiveWorkspaceStops url password (d.rounds + more)) []
      (fun result log => log = d.due ∧ (∀ id ∈ d.due, d.refuses id = false) ∧
        result = ⟨d.due, d.stopping⟩)
      (fun error log => log = d.due ∧ (∃ id ∈ d.due, d.refuses id = true) ∧
        error = stopFailure (d.due.filter d.refuses)) := by
  refine ⟨⟨sortedIds_nodup (d.distinct.sublist (List.filter_sublist.map _)), fun id => ?_⟩, ?_⟩
  · simp only [SteadyDeployment.due, mem_sortedIds, List.mem_filter, decide_eq_true_eq]
    exact exists_congr fun w => and_assoc.trans (and_congr_right fun _ => and_comm)
  have enough : d.workspaces.length < (d.rounds + more) * Coder.workspacePageSize := by
    have hdiv := Nat.lt_div_mul_add (a := d.workspaces.length) (b := Coder.workspacePageSize)
      (by decide)
    rw [SteadyDeployment.rounds, Nat.add_mul, Nat.add_mul, Nat.one_mul]
    omega
  rw [submitActiveWorkspaceStops_eq]
  refine upholds_bind.mpr (upholds_perform.mpr ⟨?_, ?_⟩)
  · rintro _ log ⟨-, rfl⟩
    refine ⟨trivial, (ends_activeWorkspaces enough).bind ?_ fun _ _ h => h.elim⟩
    rintro active log ⟨rfl, rfl⟩
    refine (ends_submissions _ _ _).bind ?_ fun _ _ h => h.elim
    rintro acc log ⟨rfl, rfl⟩
    -- The workspaces found are those observed, by id.
    generalize hactive : Coder.sortedById (Coder.observedWorkspaceStatuses.flatMap d.listing) = active
    have hsorted : active.Pairwise fun a b => a.id ≤ b.id := by
      have hids := List.pairwise_insertionSort (· ≤ ·)
        ((Coder.observedWorkspaceStatuses.flatMap d.listing).map fun w => w.id)
      rw [← List.map_insertionSort (r := fun a b : CoderWorkspace => a.id ≤ b.id) (s := (· ≤ ·))
        (fun w => w.id) _ fun _ _ _ _ => Iff.rfl] at hids
      rw [← hactive]
      exact List.pairwise_map.mp hids
    have hperm : active.Perm (d.workspaces.filter fun w =>
        w.status ∈ Coder.observedWorkspaceStatuses) := by
      rw [← hactive]
      exact (List.perm_insertionSort _ _).trans (d.flatMap_listing _ (by decide))
    have hdue : ((active.filter fun w => w.status ≠ .stopping).map fun w => w.id) = d.due := by
      refine sortedIds_of_perm (hsorted.filter _) ((hperm.filter _).trans (.of_eq ?_))
      rw [List.filter_filter]
      refine List.filter_congr fun w _ => ?_
      cases w.status <;> simp [Coder.observedWorkspaceStatuses]
    have hstopping : ((active.filter fun w => w.status = .stopping).map fun w => w.id) =
        d.stopping := by
      refine sortedIds_of_perm (hsorted.filter _) ((hperm.filter _).trans (.of_eq ?_))
      rw [List.filter_filter]
      refine List.filter_congr fun w _ => ?_
      cases w.status <;> simp [Coder.observedWorkspaceStatuses]
    rw [foldl_record]
    simp only [hdue, hstopping, List.nil_append]
    refine upholds_ite (fun hnone => ?_) fun hsome => ?_
    · have hall : ∀ id ∈ d.due, d.refuses id = false := by
        simpa [List.filter_eq_nil_iff] using hnone
      refine ⟨rfl, hall, ?_⟩
      rw [List.filter_eq_self.mpr]
      simpa using hall
    · refine ⟨rfl, ?_, rfl⟩
      simpa using hsome
  · rintro e log ⟨hanswer, -⟩
    cases hanswer

/-- 120 workspaces, of which every tenth is stopping already and three refuse to. -/
def crowdedDeployment : SteadyDeployment :=
  let workspaces : List CoderWorkspace := (List.range 120).map fun id =>
    ⟨id, if id % 10 = 0 then .stopping else .running, id, .start, "dev", none⟩
  { workspaces
    distinct := by decide +kernel
    listing := fun status => workspaces.filter fun w => w.status = status
    listed := fun _ => .refl _
    refuses := fun id => id % 50 = 1 }

/-- The running ones fill more than one page, and all of them are asked to stop. -/
theorem crowd_is_stopped : crowdedDeployment.due.length = 108 ∧
    crowdedDeployment.Ends (Coder.submitActiveWorkspaceStops 1 "password" crowdedDeployment.rounds) []
      (fun _ _ => False)
      (fun error log => log = crowdedDeployment.due ∧ error = stopFailure [1, 51, 101]) := by
  have hrefused : crowdedDeployment.due.filter crowdedDeployment.refuses = [1, 51, 101] := by decide +kernel
  refine ⟨by decide +kernel, ?_⟩
  refine (daily_stop_covers_every_workspace crowdedDeployment 1 "password" 0).2.mono ?_ ?_
  · rintro result log ⟨-, haccepted, -⟩
    have hrefuses : ∃ id ∈ crowdedDeployment.due, crowdedDeployment.refuses id = true := by decide +kernel
    obtain ⟨id, hid, hrefuses⟩ := hrefuses
    exact absurd hrefuses (by simp [haccepted id hid])
  · rintro error log ⟨hlog, -, herror⟩
    exact ⟨hlog, hrefused ▸ herror⟩

end CoderManager
