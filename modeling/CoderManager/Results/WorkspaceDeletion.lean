import CoderManager.Discipline.Services
import CoderManager.Refinement.Scans

/-!
# Deletion of workspaces

A deletion goes round after round: it scans all workspaces, requests delete builds
for those without a build under way, and waits until every delete build of the
round is seen to have deleted its workspace. It returns after a scan that found
nothing more.
-/
namespace CoderManager
open Programs

def CoderWorkspace.isActive (w : CoderWorkspace) : Bool :=
  Coder.activeWorkspaceBuildStatuses.contains w.status

def Op.isDeletion : {β : Type} → Op β → Bool
  | _, .call (.createWorkspaceDeleteBuild _ _) => true
  | _, _ => false

def submitted (url : InstanceUrl) (workspaceId : UUID) (build : CoderWorkspaceBuild) : WorkerEvent :=
  ⟨.call (.createWorkspaceDeleteBuild url workspaceId), .ok build⟩

def ObservedDeleted (h : WorkerHistory) (buildId : UUID) : Prop :=
  ∃ url build, (⟨.call (.workspaceBuild url buildId), .ok build⟩ : WorkerEvent) ∈ h ∧
    build.transition = .delete ∧ build.status = .deleted

/-- The last complete scan of a history, and what was done since. -/
def LatestScan (scan : Nat → Worker (List CoderWorkspace)) (h : WorkerHistory)
    (ws : List CoderWorkspace) (since : WorkerHistory) : Prop :=
  ∃ fuel run earlier, h = since ++ (run.reverse ++ earlier) ∧ Completes (scan fuel) run ws ∧
    ∀ e ∈ since, e.op.isPageRequest = false

/-- Since the scan, every delete build that was under way or was requested is seen
to be over. -/
structure DeletionsSettled (ws : List CoderWorkspace) (since : WorkerHistory) : Prop where
  found : ∀ w ∈ ws, w.isActive = true → w.latestBuildTransition = .delete →
    ObservedDeleted since w.latestBuildId
  requested : ∀ later url id build earlier, since = later ++ submitted url id build :: earlier →
    build.status = .deleted ∨ ObservedDeleted later build.id

def ScanReady (scan : Nat → Worker (List CoderWorkspace)) (h : WorkerHistory) : Prop :=
  (∀ e ∈ h, e.op.isPageRequest = false) ∨ ∃ ws since, LatestScan scan h ws since ∧ DeletionsSettled ws since

def Deletable (scan : Nat → Worker (List CoderWorkspace)) (h : WorkerHistory) (id : UUID) : Prop :=
  ∃ ws since, LatestScan scan h ws since ∧ (∃ w ∈ ws, w.id = id) ∧
    ∀ w ∈ ws, w.id = id → w.isActive = false

/-- When a delete build may be requested and when a scan may start. -/
def deletionRule (scan : Nat → Worker (List CoderWorkspace)) (h : WorkerHistory) :
    {β : Type} → Op β → Prop
  | _, .call (.createWorkspaceDeleteBuild _ id) => Deletable scan h id
  | _, .call (.workspaces _ _ offset _) => offset = 0 → ScanReady scan h
  | _, _ => True

def deleting (scan : Nat → Worker (List CoderWorkspace)) : Protocol Op WorkerError where
  answers := fun _ _ => True
  guard := fun h o => deletionRule scan h o

def Op.isIdle {β : Type} (o : Op β) : Bool := !o.isPageRequest && !o.isDeletion

section Histories
variable {scan : Nat → Worker (List CoderWorkspace)} {h since idle : WorkerHistory}
  {ws : List CoderWorkspace} {e : WorkerEvent}

theorem LatestScan.after (latest : LatestScan scan h ws since)
    (quiet : ∀ e ∈ idle, e.op.isPageRequest = false) : LatestScan scan (idle ++ h) ws (idle ++ since) := by
  obtain ⟨fuel, run, earlier, rfl, hscan, hsince⟩ := latest
  refine ⟨fuel, run, earlier, (List.append_assoc _ _ _).symm, hscan, fun e he => ?_⟩
  rcases List.mem_append.mp he with he | he
  · exact quiet e he
  · exact hsince e he

theorem LatestScan.next (latest : LatestScan scan h ws since) (quiet : e.op.isPageRequest = false) :
    LatestScan scan (e :: h) ws (e :: since) := by
  have hquiet : ∀ e' ∈ [e], e'.op.isPageRequest = false := fun e' he => by
    obtain rfl := List.mem_singleton.mp he
    exact quiet
  exact latest.after hquiet

theorem ObservedDeleted.after {id : UUID} (h : ObservedDeleted since id) :
    ObservedDeleted (idle ++ since) id := by
  obtain ⟨url, build, hmem, hdeleted⟩ := h
  exact ⟨url, build, List.mem_append_right _ hmem, hdeleted⟩

theorem not_submitted {url : InstanceUrl} {id : UUID} {build : CoderWorkspaceBuild}
    (quiet : ∀ e ∈ idle, e.op.isIdle = true) : submitted url id build ∉ idle := fun hmem =>
  Bool.noConfusion (quiet _ hmem)

theorem DeletionsSettled.after (settled : DeletionsSettled ws since) (quiet : ∀ e ∈ idle, e.op.isIdle = true) :
    DeletionsSettled ws (idle ++ since) where
  found w hw hactive hdelete := (settled.found w hw hactive hdelete).after
  requested := by
    intro later url id build earlier hsplit
    rcases List.append_eq_append_iff.mp hsplit with ⟨middle, rfl, hsince⟩ | ⟨middle, rfl, hrest⟩
    · rcases settled.requested middle url id build earlier hsince with hdeleted | hobserved
      · exact .inl hdeleted
      · exact .inr hobserved.after
    · cases middle with
      | nil => 
          rcases settled.requested [] url id build earlier hrest.symm with hdeleted | ⟨_, _, hmem, _⟩
          · exact .inl hdeleted
          · cases hmem
      | cons first middle =>
          obtain ⟨rfl, -⟩ := List.cons.inj hrest
          exact absurd (List.mem_append_right _ List.mem_cons_self) (not_submitted quiet)

theorem ScanReady.after (ready : ScanReady scan h) (quiet : ∀ e ∈ idle, e.op.isIdle = true) :
    ScanReady scan (idle ++ h) := by
  have hpages : ∀ e ∈ idle, e.op.isPageRequest = false := fun e he => by
    have hidle := quiet e he
    simp only [Op.isIdle, Bool.and_eq_true, Bool.not_eq_true'] at hidle
    exact hidle.1
  rcases ready with hfirst | ⟨ws, since, hlatest, hsettled⟩
  · refine .inl fun e he => ?_
    rcases List.mem_append.mp he with he | he
    · exact hpages e he
    · exact hfirst e he
  · exact .inr ⟨ws, idle ++ since, hlatest.after hpages, hsettled.after quiet⟩

theorem isIdle_of_silent {β : Type} {o : Op β} (h : o.isCall = false) : o.isIdle = true := by
  cases o with
  | call c => cases h
  | query q => rfl
  | transaction t => rfl

/-- While delete builds are requested: those under way among the workspaces gone
through and those requested so far are in the list of builds to wait for. -/
structure Requesting (scan : Nat → Worker (List CoderWorkspace)) (h : WorkerHistory)
    (ws done : List CoderWorkspace) (deleting : List UUID) (since : WorkerHistory) : Prop where
  latest : LatestScan scan h ws since
  found : ∀ w ∈ done, w.isActive = true → w.latestBuildTransition = .delete →
    w.latestBuildId ∈ deleting
  requested : ∀ url id build, submitted url id build ∈ since →
    build.status = .deleted ∨ build.id ∈ deleting

/-- While builds are waited for: each is still in the list or was seen to be over. -/
structure Waiting (scan : Nat → Worker (List CoderWorkspace)) (h : WorkerHistory)
    (ws : List CoderWorkspace) (deleting : List UUID) (waits requests : WorkerHistory) : Prop where
  latest : LatestScan scan h ws (waits ++ requests)
  idle : ∀ e ∈ waits, e.op.isIdle = true
  found : ∀ w ∈ ws, w.isActive = true → w.latestBuildTransition = .delete →
    w.latestBuildId ∈ deleting ∨ ObservedDeleted waits w.latestBuildId
  requested : ∀ url id build, submitted url id build ∈ requests →
    build.status = .deleted ∨ build.id ∈ deleting ∨ ObservedDeleted waits build.id

variable {deleting : List UUID} {waits requests : WorkerHistory} {done : List CoderWorkspace}

theorem isPageRequest_of_isIdle {β : Type} {o : Op β} (h : o.isIdle = true) :
    o.isPageRequest = false := by
  simp only [Op.isIdle, Bool.and_eq_true, Bool.not_eq_true'] at h
  exact h.1

theorem Requesting.after (requesting : Requesting scan h ws done deleting since)
    (quiet : ∀ e ∈ idle, e.op.isIdle = true) :
    Requesting scan (idle ++ h) ws done deleting (idle ++ since) where
  latest := requesting.latest.after fun e he => isPageRequest_of_isIdle (quiet e he)
  found := requesting.found
  requested := by
    intro url id build hmem
    rcases List.mem_append.mp hmem with hmem | hmem
    · exact absurd hmem (not_submitted quiet)
    · exact requesting.requested url id build hmem

theorem Waiting.after (waiting : Waiting scan h ws deleting waits requests)
    (quiet : ∀ e ∈ idle, e.op.isIdle = true) :
    Waiting scan (idle ++ h) ws deleting (idle ++ waits) requests where
  latest := by
    rw [List.append_assoc]
    exact waiting.latest.after fun e he => isPageRequest_of_isIdle (quiet e he)
  idle := fun e he => (List.mem_append.mp he).elim (quiet e) (waiting.idle e)
  found w hw hactive hdelete := (waiting.found w hw hactive hdelete).imp_right .after
  requested url id build hmem :=
    (waiting.requested url id build hmem).imp_right (·.imp_right .after)

theorem Requesting.waiting (requesting : Requesting scan h ws ws deleting since) :
    Waiting scan h ws deleting [] since where
  latest := requesting.latest
  idle := fun _ he => nomatch he
  found w hw hactive hdelete := .inl (requesting.found w hw hactive hdelete)
  requested url id build hmem := (requesting.requested url id build hmem).imp_right .inl

theorem Waiting.observed {buildId : UUID} (waiting : Waiting scan h ws deleting waits requests)
    (observed : ObservedDeleted waits buildId) :
    Waiting scan h ws (deleting.filter (· ≠ buildId)) waits requests := by
  have hkept : ∀ id, id ∈ deleting → id ∈ deleting.filter (· ≠ buildId) ∨ ObservedDeleted waits id := by
    intro id hid
    by_cases heq : id = buildId
    · exact .inr (heq ▸ observed)
    · exact .inl (List.mem_filter.mpr ⟨hid, decide_eq_true heq⟩)
  refine ⟨waiting.latest, waiting.idle, fun w hw hactive hdelete => ?_, fun url id build hmem => ?_⟩
  · exact (waiting.found w hw hactive hdelete).elim (hkept _) .inr
  · rcases waiting.requested url id build hmem with hdeleted | hwaited | hobserved
    · exact .inl hdeleted
    · exact .inr (hkept _ hwaited)
    · exact .inr (.inr hobserved)

theorem Waiting.ready (waiting : Waiting scan h ws [] waits requests) : ScanReady scan h := by
  refine .inr ⟨ws, waits ++ requests, waiting.latest, ?_, ?_⟩
  · intro w hw hactive hdelete
    rcases waiting.found w hw hactive hdelete with hwaited | ⟨url, build, hmem, hover⟩
    · cases hwaited
    · exact ⟨url, build, List.mem_append_left _ hmem, hover⟩
  · intro later url id build earlier hsplit
    rcases List.append_eq_append_iff.mp hsplit with ⟨middle, rfl, hrequests⟩ | ⟨middle, rfl, hrest⟩
    · rcases waiting.requested url id build (by rw [hrequests]; simp) with
        hdeleted | hwaited | ⟨url', build', hmem, hover⟩
      · exact .inl hdeleted
      · cases hwaited
      · exact .inr ⟨url', build', List.mem_append_left _ hmem, hover⟩
    · cases middle with
      | nil =>
          have hmem : submitted url id build ∈ [] ++ requests := hrest ▸ List.mem_cons_self
          rcases waiting.requested url id build hmem with
            hdeleted | hwaited | ⟨url', build', hmem, hover⟩
          · exact .inl hdeleted
          · cases hwaited
          · exact .inr ⟨url', build', by simpa using hmem, hover⟩
      | cons first middle =>
          obtain ⟨rfl, -⟩ := List.cons.inj hrest
          exact absurd (List.mem_append_right _ List.mem_cons_self) (not_submitted waiting.idle)

theorem idle_singleton (h : e.op.isIdle = true) : ∀ e' ∈ [e], e'.op.isIdle = true := by
  intro e' he
  obtain rfl := List.mem_singleton.mp he
  exact h

theorem ScanReady.next (ready : ScanReady scan h) (quiet : e.op.isIdle = true) : ScanReady scan (e :: h) := by
  have hready := ready.after (idle_singleton quiet)
  exact hready

end Histories

section Rounds
variable {bystander : Bystander} {scan : Nat → Worker (List CoderWorkspace)} {h since : WorkerHistory}
  {ws done : List CoderWorkspace} {url : InstanceUrl} {builds : List UUID × List UUID}

theorem mem_addBuild {ids : List UUID} {id x : UUID} :
    x ∈ Coder.addBuild ids id ↔ x ∈ ids ∨ x = id := by
  unfold Coder.addBuild
  split
  · rename_i hmem
    have hmem : id ∈ ids := by simpa using hmem
    constructor
    · exact .inl
    · rintro (hx | rfl)
      · exact hx
      · exact hmem
  · simp

theorem submitted_inj {url' : InstanceUrl} {id id' : UUID} {build build' : CoderWorkspaceBuild}
    (h : submitted url id build = submitted url' id' build') : build = build' := by
  unfold submitted at h
  cases h
  rfl

theorem Bystander.idles (bystander : Bystander) (h : WorkerHistory) :
    Obeys (deleting scan) bystander.program h
      (fun _ h' => ∃ beat, h' = beat ++ h ∧ ∀ e ∈ beat, e.op.isIdle = true) (fun _ _ => True) := by
  have hobeys : Obeys (deleting scan) bystander.program h
      (fun _ h' => ∃ beat, h' = beat ++ h ∧ Silent beat) _ :=
    bystander.obeys fun h' _ o hsilent => by
      cases o with
      | call c => cases hsilent
      | query q => exact trivial
      | transaction t => exact trivial
  refine hobeys.mono (fun _ h' hq => ?_) (fun _ _ _ => trivial)
  obtain ⟨beat, rfl, hsilent⟩ := hq
  exact ⟨beat, rfl, fun e he => isIdle_of_silent (hsilent e he)⟩

theorem deleteWorkspace_requests {unexpected failed : String} {w : CoderWorkspace}
    (distinct : (ws.map fun w => w.id).Nodup) (hw : w ∈ ws)
    (requesting : Requesting scan h ws done builds.2 since) :
    Obeys (deleting scan)
      (Coder.deleteWorkspace url unexpected failed bystander.program builds w) h
      (fun builds' h' => ∃ since', Requesting scan h' ws (done ++ [w]) builds'.2 since')
      (fun _ _ => True) := by
  unfold Coder.deleteWorkspace
  refine obeys_bind.mpr ((bystander.idles h).mono ?_ (fun _ _ _ => trivial))
  rintro _ _ ⟨beat, rfl, hidle⟩
  have hbeaten := requesting.after hidle
  dsimp only
  split
  · rename_i hactive
    split
    · refine ⟨_, hbeaten.latest, fun v hv hvactive hdelete => ?_, fun url id build hmem => ?_⟩
      · rcases List.mem_append.mp hv with hv | hv
        · exact mem_addBuild.mpr (.inl (hbeaten.found v hv hvactive hdelete))
        · obtain rfl := List.mem_singleton.mp hv
          exact mem_addBuild.mpr (.inr rfl)
      · exact (hbeaten.requested url id build hmem).imp_right fun hmem => mem_addBuild.mpr (.inl hmem)
    · rename_i hother
      refine ⟨_, hbeaten.latest, fun v hv hvactive hdelete => ?_, hbeaten.requested⟩
      rcases List.mem_append.mp hv with hv | hv
      · exact hbeaten.found v hv hvactive hdelete
      · obtain rfl := List.mem_singleton.mp hv
        exact absurd hdelete hother
  · rename_i hinactive
    have hinactive : w.isActive = false := Bool.eq_false_iff.mpr hinactive
    have hdeletable : Deletable scan (beat ++ h) w.id := by
      refine ⟨ws, _, hbeaten.latest, ⟨w, hw, rfl⟩, fun v hv hid => ?_⟩
      rw [List.inj_on_of_nodup_map distinct hv hw hid]
      exact hinactive
    refine obeys_bind.mpr (obeys_perform.mpr ⟨hdeletable, fun build _ => ?_, fun _ _ => trivial⟩)
    have hlatest : LatestScan scan (submitted url w.id build :: (beat ++ h)) ws
        (submitted url w.id build :: (beat ++ since)) :=
      hbeaten.latest.next rfl
    have hfound : ∀ v ∈ done ++ [w], v.isActive = true → v.latestBuildTransition = .delete →
        v.latestBuildId ∈ builds.2 := by
      intro v hv hvactive hdelete
      rcases List.mem_append.mp hv with hv | hv
      · exact hbeaten.found v hv hvactive hdelete
      · obtain rfl := List.mem_singleton.mp hv
        rw [hinactive] at hvactive
        cases hvactive
    split
    · exact trivial
    split
    · exact trivial
    refine ⟨submitted url w.id build :: (beat ++ since), ?_⟩
    split
    · rename_i hdeleted
      refine ⟨hlatest, hfound, fun url' id build' hmem => ?_⟩
      rcases List.mem_cons.mp hmem with hnew | hmem
      · obtain rfl := submitted_inj hnew
        exact .inl hdeleted
      · exact hbeaten.requested url' id build' hmem
    · refine ⟨hlatest, fun v hv hvactive hdelete =>
        mem_addBuild.mpr (.inl (hfound v hv hvactive hdelete)), fun url' id build' hmem => ?_⟩
      rcases List.mem_cons.mp hmem with hnew | hmem
      · obtain rfl := submitted_inj hnew
        exact .inr (mem_addBuild.mpr (.inr rfl))
      · exact (hbeaten.requested url' id build' hmem).imp_right fun hmem =>
          mem_addBuild.mpr (.inl hmem)

variable {requests : WorkerHistory}

/-- What is still to be waited for, however long the wait has been. -/
def StillWaiting (scan : Nat → Worker (List CoderWorkspace)) (ws : List CoderWorkspace)
    (requests : WorkerHistory) (deleting : List UUID) (h : WorkerHistory) : Prop :=
  ∃ waits, Waiting scan h ws deleting waits requests

theorem StillWaiting.next {deleting : List UUID} {e : WorkerEvent}
    (waiting : StillWaiting scan ws requests deleting h) (quiet : e.op.isIdle = true) :
    StillWaiting scan ws requests deleting (e :: h) := by
  obtain ⟨waits, hwaits⟩ := waiting
  exact ⟨[e] ++ waits, hwaits.after (idle_singleton quiet)⟩

theorem pollEvent_idle (url : InstanceUrl) (buildId : UUID) (build : CoderWorkspaceBuild) :
    (⟨.call (.workspaceBuild url buildId), .ok build⟩ : WorkerEvent).op.isIdle = true := rfl

theorem pollDeletions_waits {blocking pending : List UUID}
    (waiting : StillWaiting scan ws requests pending h) :
    Obeys (deleting scan) (Coder.pollDeletions url blocking pending) h
      (fun left h' => StillWaiting scan ws requests left.2 h') (fun _ _ => True) := by
  unfold Coder.pollDeletions
  have hblocking : Obeys (deleting scan) (foldEach blocking blocking fun blocking buildId => do
      let build ← request (.workspaceBuild url buildId)
      return if Coder.activeWorkspaceBuildStatuses.contains build.status then blocking
        else blocking.filter (· ≠ buildId)) h
      (fun _ h' => StillWaiting scan ws requests pending h') (fun _ _ => True) := by
    refine foldEach_holds (fun left buildId h' hinv => ?_) waiting
    refine obeys_bind.mpr (obeys_perform.mpr ⟨trivial, fun build _ => ?_, fun _ _ => trivial⟩)
    exact hinv.next rfl
  refine obeys_bind.mpr (hblocking.mono (fun blocking' h' hinv => ?_) (fun _ _ _ => trivial))
  refine obeys_bind.mpr (Obeys.mono (foldEach_holds (fun left buildId h'' hleft => ?_) hinv)
    (fun left h'' hleft => hleft) (fun _ _ _ => trivial))
  refine obeys_bind.mpr (obeys_perform.mpr ⟨trivial, fun build _ => ?_, fun _ _ => trivial⟩)
  obtain ⟨waits, hwaits⟩ := hleft
  have hseen := hwaits.after (idle_singleton (pollEvent_idle url buildId build))
  dsimp only
  split
  · exact trivial
  rename_i htransition
  split
  · rename_i hdeleted
    refine ⟨_, hseen.observed ⟨url, build, ?_, not_not.mp htransition, hdeleted⟩⟩
    exact List.mem_append_left _ List.mem_cons_self
  split
  · exact trivial
  · exact ⟨_, hseen⟩

theorem waitWorkspaceDeletions_settles (fuel : Nat) {blocking pending : List UUID}
    (waiting : StillWaiting scan ws requests pending h) :
    Obeys (deleting scan)
      (Coder.waitWorkspaceDeletions url bystander.program fuel (blocking, pending)) h
      (fun _ h' => ScanReady scan h') (fun _ _ => True) := by
  induction fuel generalizing h blocking pending with
  | zero => exact trivial
  | succ fuel ih =>
      unfold Coder.waitWorkspaceDeletions
      split
      · rename_i hdone
        obtain ⟨-, hpending⟩ := Bool.and_eq_true_iff.mp hdone
        obtain rfl := List.isEmpty_iff.mp hpending
        obtain ⟨waits, hwaits⟩ := waiting
        exact hwaits.ready
      · refine obeys_bind.mpr (obeys_bind.mpr (obeys_perform.mpr
          ⟨trivial, fun inTime _ => ?_, fun _ _ => trivial⟩))
        cases inTime with
        | false => exact trivial
        | true =>
            have hasked := waiting.next (e := ⟨.call .beforeDeadline, .ok true⟩) rfl
            refine obeys_bind.mpr ((bystander.idles _).mono ?_ (fun _ _ _ => trivial))
            rintro _ _ ⟨beat, rfl, hidle⟩
            obtain ⟨waits, hwaits⟩ := hasked
            have hbeaten := hwaits.after hidle
            refine obeys_bind.mpr ((pollDeletions_waits ⟨_, hbeaten⟩).mono ?_ (fun _ _ _ => trivial))
            rintro ⟨blocking', pending'⟩ h' hleft
            exact ih hleft

/-- A round leaves its delete builds settled. -/
theorem round_settles {unexpected failed : String} (fuel : Nat)
    (distinct : (ws.map fun w => w.id).Nodup) (latest : LatestScan scan h ws []) :
    Obeys (deleting scan) (do
      let builds ← foldEach ws ([], [])
        (Coder.deleteWorkspace url unexpected failed bystander.program)
      Coder.waitWorkspaceDeletions url bystander.program fuel builds) h
      (fun _ h' => ScanReady scan h') (fun _ _ => True) := by
  have hstart : ∃ since, Requesting scan h ws [] ([] : List UUID) since :=
    ⟨[], latest, fun _ hw => (nomatch hw), fun _ _ _ hmem => (nomatch hmem)⟩
  have hrequests := foldEach_obeys (P := deleting scan)
    (fun (builds : List UUID × List UUID) done h' =>
      ∃ since, Requesting scan h' ws done builds.2 since)
    (f := Coder.deleteWorkspace url unexpected failed bystander.program)
    (fun builds done w rest h' hall hinv => by
      obtain ⟨since, hinv⟩ := hinv
      exact deleteWorkspace_requests distinct (by rw [hall]; simp) hinv)
    (List.nil_append ws).symm (s := ([], [])) hstart
  refine obeys_bind.mpr (hrequests.mono (fun builds h' hinv => ?_) (fun _ _ _ => trivial))
  obtain ⟨since, hinv⟩ := hinv
  exact waitWorkspaceDeletions_settles fuel ⟨[], hinv.waiting⟩

theorem allPages_ready (fuel : Nat) {expected : Option Nat} {offset : Nat}
    {found : List CoderWorkspace} (ready : offset = 0 → ScanReady scan h) :
    Keeps (deleting scan) (Coder.allPages url bystander.program fuel expected offset found) h := by
  induction fuel generalizing h expected offset found with
  | zero => exact trivial
  | succ fuel ih =>
      unfold Coder.allPages
      refine obeys_bind.mpr ((bystander.idles h).mono ?_ (fun _ _ _ => trivial))
      rintro _ _ ⟨beat, rfl, hidle⟩
      refine obeys_bind.mpr (obeys_perform.mpr
        ⟨fun hzero => (ready hzero).after hidle, fun page _ => ?_, fun _ _ => trivial⟩)
      refine Keeps.ite (fun _ => .throw _) fun _ => ?_
      refine Keeps.ite (fun _ => .throw _) fun _ => ?_
      refine Keeps.ite (fun _ => .ite (fun _ => .throw _) fun _ => .pure _) fun _ => ?_
      refine Keeps.ite (fun _ => .throw _) fun hsome => ?_
      refine ih fun hzero => ?_
      have hempty : page.items = [] := List.eq_nil_of_length_eq_zero (by omega)
      exact absurd (List.isEmpty_iff.mpr hempty) hsome

theorem templateWorkspaces_ready (templateId : UUID) (fuel : Nat) (ready : ScanReady scan h) :
    Keeps (deleting scan) (Coder.templateWorkspaces url templateId bystander.program fuel) h := by
  refine .bind (allPages_ready fuel fun _ => ready) fun _ _ _ => ?_
  exact .ite (fun _ => .throw _) fun _ => .pure _

theorem waitForCoder_ready {password : String} (fuel : Nat) (ready : ScanReady scan h) :
    Obeys (deleting scan) (Coder.waitForCoder url password bystander.program fuel) h
      (fun _ h' => ScanReady scan h') (fun _ _ => True) := by
  induction fuel generalizing h with
  | zero => exact trivial
  | succ fuel ih =>
      unfold Coder.waitForCoder
      refine obeys_bind.mpr (obeys_bind.mpr (obeys_perform.mpr
        ⟨trivial, fun inTime _ => ?_, fun _ _ => trivial⟩))
      cases inTime with
      | false => exact trivial
      | true =>
          have hasked := ready.next (e := ⟨.call .beforeDeadline, .ok true⟩) rfl
          refine obeys_bind.mpr ((bystander.idles _).mono ?_ (fun _ _ _ => trivial))
          rintro _ _ ⟨beat, rfl, hidle⟩
          have hbeaten := hasked.after hidle
          have again : ∀ h', ScanReady scan h' → Obeys (deleting scan) (do
              Coder.requireBeforeDeadline "Coder workspace deletion timed out"
              Coder.waitForCoder url password bystander.program fuel) h'
              (fun _ h'' => ScanReady scan h'') (fun _ _ => True) := by
            intro h' hready
            refine obeys_bind.mpr (obeys_bind.mpr (obeys_perform.mpr
              ⟨trivial, fun inTime _ => ?_, fun _ _ => trivial⟩))
            cases inTime with
            | false => exact trivial
            | true => exact ih (hready.next rfl)
          refine obeys_bind.mpr (obeys_tryCatch.mpr (obeys_bind.mpr (obeys_perform.mpr
            ⟨trivial, fun _ _ => hbeaten.next rfl, fun error _ => ?_⟩)))
          have hfailed := hbeaten.next
            (e := ⟨.call (.authenticatePreparedAdmin url password), .error error⟩) rfl
          cases error with
          | coderRequestError message => exact again _ hfailed
          | httpError => exact again _ hfailed
          | _ => exact trivial

theorem deleteRounds_keeps_rule {timedOut unexpected failed : String}
    (distinct : ∀ fuel run ws, Completes (scan fuel) run ws → (ws.map fun w => w.id).Nodup)
    (scans : ∀ fuel h, ScanReady scan h → Keeps (deleting scan) (scan fuel) h) (fuel : Nat)
    {deletedIds : List UUID} (ready : ScanReady scan h) :
    Keeps (deleting scan)
      (Coder.deleteRounds url scan timedOut unexpected failed bystander.program fuel deletedIds) h := by
  induction fuel generalizing h deletedIds with
  | zero => exact trivial
  | succ fuel ih =>
      unfold Coder.deleteRounds
      refine obeys_bind.mpr (obeys_bind.mpr (obeys_perform.mpr
        ⟨trivial, fun inTime _ => ?_, fun _ _ => trivial⟩))
      cases inTime with
      | false => exact trivial
      | true =>
          have hasked := ready.next (e := ⟨.call .beforeDeadline, .ok true⟩) rfl
          generalize (⟨.call .beforeDeadline, .ok true⟩ : WorkerEvent) :: h = asked at hasked ⊢
          refine Keeps.run_bind (scans fuel asked hasked) fun ws run hrun => ?_
          refine Keeps.ite (fun _ => .pure _) fun _ => ?_
          have hlatest : LatestScan scan (run.reverse ++ asked) ws [] :=
            ⟨fuel, run, asked, rfl, hrun, fun _ he => nomatch he⟩
          have hround : Obeys (deleting scan) (do
              let builds ← foldEach ws ([], [])
                (Coder.deleteWorkspace url unexpected failed bystander.program)
              Coder.waitWorkspaceDeletions url bystander.program fuel builds) (run.reverse ++ asked)
              (fun _ h' => ScanReady scan h') (fun _ _ => True) :=
            round_settles fuel (distinct fuel run ws hrun) hlatest
          refine obeys_bind.mpr ((obeys_bind.mp hround).mono (fun builds h' hwait => ?_)
            (fun _ _ _ => trivial))
          exact obeys_bind.mpr (hwait.mono (fun _ h'' hready => ih hready) (fun _ _ _ => trivial))

/-- A deletion that returns has just scanned and found nothing. -/
theorem deleteRounds_completes {timedOut unexpected failed : String} {heartbeat : Worker Unit}
    (fuel : Nat) {deletedIds ids : List UUID} {run : List WorkerEvent}
    (completed : Completes
      (Coder.deleteRounds url scan timedOut unexpected failed heartbeat fuel deletedIds) run ids) :
    ∃ before last fuel', run = before ++ last ∧ Completes (scan fuel') last [] := by
  induction fuel generalizing run deletedIds with
  | zero => exact absurd completed completes_halt
  | succ fuel ih =>
      unfold Coder.deleteRounds at completed
      obtain ⟨first, rest, ⟨⟩, rfl, -, hscan⟩ := completes_bind.mp completed
      obtain ⟨scanned, rest, ws, rfl, hscan, hrest⟩ := completes_bind.mp hscan
      split at hrest
      · rename_i hempty
        obtain ⟨rfl, -⟩ := completes_pure.mp hrest
        obtain rfl := List.isEmpty_iff.mp hempty
        exact ⟨first, scanned, fuel, by rw [List.append_nil], hscan⟩
      · obtain ⟨requests, rest, builds, rfl, -, hrest⟩ := completes_bind.mp hrest
        obtain ⟨waits, rest, ⟨⟩, rfl, -, hrest⟩ := completes_bind.mp hrest
        obtain ⟨before, last, fuel', rfl, hlast⟩ := ih hrest
        exact ⟨first ++ (scanned ++ (requests ++ (waits ++ before))), last, fuel', by simp, hlast⟩

end Rounds

/-- A scan makes as many requests as the first count calls for, and returns that
many workspaces or raises. -/
structure ScansAll (url : InstanceUrl) (bystander : Bystander) (fuel : Nat) : Prop where
  bounded : ∀ run, Begins (Coder.allWorkspaces url bystander.program fuel) run →
    (∀ e ∈ run, accepted e.op e.result) → pageRequests run ≤ requestBound (pages run).head?
  complete : ∀ run out, Ends (Coder.allWorkspaces url bystander.program fuel) run out →
    (∀ e ∈ run, accepted e.op e.result) → requestBound (pages run).head? ≤ fuel →
    (∃ e, out = some (.error e)) ∨ ∃ ws first, out = some (.ok ws) ∧
      (pages run).head? = some first ∧ ws.length = first.count ∧
      (ws.map fun w => w.id).Pairwise (· < ·)
  unchanging : ∀ remote run out, (remote.map fun w : CoderWorkspace => w.id).Nodup →
    Ends (Coder.allWorkspaces url bystander.program fuel) run out →
    (∀ e ∈ run, serves remote e.op e.result) → requestBound (pages run).head? ≤ fuel →
    (∃ ws, out = some (.ok ws) ∧ ws.Perm remote) ∨ ∃ e earlier beat, out = some (.error e) ∧
      run = earlier ++ beat ∧ Ends bystander.program beat (some (.error e))

/-- A deletion returns after an empty scan, requests a delete build only for a
workspace that had no build under way in the last scan, and scans again only when
every delete build of the last round was seen to be over. -/
structure DeletesAll (program : Worker (List UUID)) (scan : Nat → Worker (List CoderWorkspace)) :
    Prop where
  proven : ∀ run ids, Completes program run ids →
    ∃ before last fuel, run = before ++ last ∧ Completes (scan fuel) last []
  inactive : ∀ run before after url id result, Begins program run →
    run = before ++ ⟨.call (.createWorkspaceDeleteBuild url id), result⟩ :: after →
    Deletable scan before.reverse id
  settled : ∀ run before after url status limit result, Begins program run →
    run = before ++ ⟨.call (.workspaces url status 0 limit), result⟩ :: after →
    ScanReady scan before.reverse

section Deletions
variable (url : InstanceUrl) (password : String) (templateId : UUID) (bystander : Bystander)
  (fuel : Nat)

theorem allWorkspaces_scansAll : ScansAll url bystander fuel where
  bounded run started answered :=
    allWorkspaces_requests started fun e he => filled_of_accepted _ _ (answered e he)
  complete := by
    intro run out ended answered enough
    have hfilled : ∀ e ∈ run, filled e.op e.result := fun e he => filled_of_accepted _ _ (answered e he)
    cases out with
    | none => exact absurd (allWorkspaces_decides ended hfilled) (Nat.not_lt_of_le enough)
    | some result =>
        cases result with
        | error e => exact .inl ⟨e, rfl⟩
        | ok ws =>
            obtain ⟨first, hcomplete⟩ := allWorkspaces_complete (ends_ok.mp ended) hfilled
            exact .inr ⟨ws, first, rfl, hcomplete⟩
  unchanging := by
    intro remote run out distinct ended answered enough
    obtain ⟨hok, herr⟩ := allWorkspaces_served distinct ended answered
    cases out with
    | none =>
        have hdecides := allWorkspaces_decides ended fun e he => filled_of_serves _ _ (answered e he)
        exact absurd hdecides (Nat.not_lt_of_le enough)
    | some result =>
        cases result with
        | error e =>
            obtain ⟨earlier, beat, hrun, hraised⟩ := herr e rfl
            exact .inr ⟨e, earlier, beat, rfl, hrun, hraised⟩
        | ok ws => exact .inl ⟨ws, rfl, hok ws rfl⟩

theorem deletesAll {program : Worker (List UUID)} {scan : Nat → Worker (List CoderWorkspace)}
    (proven : ∀ run ids, Completes program run ids →
      ∃ before last fuel, run = before ++ last ∧ Completes (scan fuel) last [])
    (keeps : Keeps (deleting scan) program []) : DeletesAll program scan where
  proven := proven
  inactive := by
    intro run before after url id result started split
    have hguard := keeps.begins (fun _ _ => trivial) started split
    rw [List.append_nil] at hguard
    exact hguard
  settled := by
    intro run before after url status limit result started split
    have hguard := keeps.begins (fun _ _ => trivial) started split
    rw [List.append_nil] at hguard
    exact hguard rfl

theorem templateWorkspaces_completes {heartbeat : Worker Unit} {run : List WorkerEvent}
    {ws : List CoderWorkspace} :
    Completes (Coder.templateWorkspaces url templateId heartbeat fuel) run ws ↔
      ∃ all, Completes (Coder.allWorkspaces url heartbeat fuel) run all ∧
        (∀ w ∈ all, w.templateId.isSome) ∧ ws = all.filter fun w => w.templateId = some templateId := by
  unfold Coder.templateWorkspaces
  constructor
  · intro h
    obtain ⟨first, rest, all, rfl, hall, hrest⟩ := completes_bind.mp h
    split at hrest
    · exact absurd hrest completes_throw
    · rename_i hexposed
      obtain ⟨rfl, rfl⟩ := completes_pure.mp hrest
      rw [List.append_nil]
      refine ⟨all, hall, fun w hw => ?_, rfl⟩
      have hnone : w.templateId.isNone = false := by
        by_contra hw'
        exact hexposed (List.any_eq_true.mpr ⟨w, hw, by simpa using hw'⟩)
      simpa [Option.isSome_iff_ne_none] using hnone
  · rintro ⟨all, hall, hexposed, rfl⟩
    refine completes_bind.mpr ⟨run, [], all, (List.append_nil run).symm, hall, ?_⟩
    have hnone : ¬(all.any fun w => w.templateId.isNone) = true := by
      intro h
      obtain ⟨w, hw, hmissing⟩ := List.any_eq_true.mp h
      have hsome := hexposed w hw
      rw [Option.isNone_iff_eq_none.mp hmissing] at hsome
      cases hsome
    rw [if_neg hnone]
    exact completes_pure.mpr ⟨rfl, rfl⟩

theorem deleteAllWorkspaces_deletesAll :
    DeletesAll (Coder.deleteAllWorkspaces url password bystander.program fuel)
      (Coder.allWorkspaces url bystander.program) := by
  refine deletesAll (fun run ids completed => ?_) ?_
  · obtain ⟨first, rest, ⟨⟩, rfl, -, hrounds⟩ := completes_bind.mp completed
    obtain ⟨before, last, fuel', rfl, hlast⟩ := deleteRounds_completes fuel hrounds
    exact ⟨first ++ before, last, fuel', (List.append_assoc _ _ _).symm, hlast⟩
  · have hstart : ScanReady (Coder.allWorkspaces url bystander.program) [] := .inl fun _ he => nomatch he
    refine obeys_bind.mpr ((waitForCoder_ready fuel hstart).mono (fun _ h' hready => ?_)
      (fun _ _ _ => trivial))
    exact deleteRounds_keeps_rule (fun fuel _ _ hscan => allPages_distinct fuel hscan)
      (fun fuel _ hready => allPages_ready fuel fun _ => hready) fuel hready

theorem deleteTemplateWorkspaces_deletesAll :
    DeletesAll (Coder.deleteTemplateWorkspaces url password templateId bystander.program fuel)
      (Coder.templateWorkspaces url templateId bystander.program) := by
  refine deletesAll (fun run ids completed => ?_) ?_
  · obtain ⟨first, rest, ⟨⟩, rfl, -, hrounds⟩ := completes_bind.mp completed
    obtain ⟨before, last, fuel', rfl, hlast⟩ := deleteRounds_completes fuel hrounds
    exact ⟨first ++ before, last, fuel', (List.append_assoc _ _ _).symm, hlast⟩
  · have hstart : ScanReady (Coder.templateWorkspaces url templateId bystander.program) [] :=
      .inl fun _ he => nomatch he
    refine obeys_bind.mpr ((waitForCoder_ready fuel hstart).mono (fun _ h' hready => ?_)
      (fun _ _ _ => trivial))
    refine deleteRounds_keeps_rule (fun fuel _ ws hscan => ?_)
      (fun fuel _ hready => templateWorkspaces_ready templateId fuel hready) fuel hready
    obtain ⟨all, hall, -, rfl⟩ := (templateWorkspaces_completes url templateId fuel).mp hscan
    exact (allPages_distinct fuel hall).sublist (List.filter_sublist.map _)

/-- A scan is complete, and a deletion proves that nothing is left: of all
workspaces, or of those of one template when every workspace states its template. -/
theorem deletions_are_proven :
    ScansAll url bystander fuel ∧
    DeletesAll (Coder.deleteAllWorkspaces url password bystander.program fuel)
      (Coder.allWorkspaces url bystander.program) ∧
    DeletesAll (Coder.deleteTemplateWorkspaces url password templateId bystander.program fuel)
      (Coder.templateWorkspaces url templateId bystander.program) ∧
    ∀ fuel run ws, Completes (Coder.templateWorkspaces url templateId bystander.program fuel) run ws ↔
      ∃ all, Completes (Coder.allWorkspaces url bystander.program fuel) run all ∧
        (∀ w ∈ all, w.templateId.isSome) ∧ ws = all.filter fun w => w.templateId = some templateId :=
  ⟨allWorkspaces_scansAll url bystander fuel,
    deleteAllWorkspaces_deletesAll url password bystander fuel,
    deleteTemplateWorkspaces_deletesAll url password templateId bystander fuel,
    fun fuel _ _ => templateWorkspaces_completes url templateId fuel⟩

end Deletions
end CoderManager
