import CoderManager.Refinement.Responses
import CoderManager.Results.WorkspaceDiscovery
import Mathlib.Data.List.Dedup

/-!
# Scans of all workspaces

`_all_workspaces` walks through the pages of one deployment. The client accepts a
page only if it is as full as its offset and its count call for, and the scan stops
unless every page states the count of the first. So a scan that continues has seen
full pages only, and one that returns has seen as many workspaces as were counted.
-/
namespace CoderManager
open Programs

def callsNothing : Protocol Op WorkerError where
  answers := fun _ _ => True
  guard := fun _ o => o.isCall = false

/-- A heartbeat that calls no other system, and returns or raises. -/
structure Bystander where
  program : Worker Unit
  silent : ∀ h, Keeps callsNothing program h
  decides : ∀ run, ¬Ends program run none

/-- The heartbeats the tasks give to the loops. -/
def Heartbeat.bystander (heartbeat : Heartbeat) : Bystander where
  program := heartbeat.program
  silent := by
    intro h
    cases heartbeat with
    | none => exact .pure ()
    | owned claim lost =>
        refine .bind (.perform rfl) fun owned _ _ => ?_
        cases owned with
        | false => exact .throw _
        | true => exact .pure ()
  decides := by
    intro run halted
    cases heartbeat with
    | none => cases (ends_pure.mp halted).2
    | owned claim lost =>
        rcases ends_bind halted with ⟨first, rest, owned, -, -, hrest⟩ | ⟨e, -, hout⟩ | ⟨hasked, -⟩
        · cases owned with
          | false => cases (ends_throw.mp hrest).2
          | true => cases (ends_pure.mp hrest).2
        · cases hout
        · obtain ⟨r, -, hout⟩ := ends_perform.mp hasked
          cases hout

def Op.page? : {β : Type} → Op β → Except WorkerError β → Option CoderWorkspacePage
  | _, .call (.workspaces _ _ _ _), .ok page => some page
  | _, _, _ => none

def pages (h : List WorkerEvent) : List CoderWorkspacePage := h.filterMap fun e => e.op.page? e.result

def pageRequests (h : List WorkerEvent) : Nat := h.countP fun e => e.op.isPageRequest

def accepted : {β : Type} → Op β → Except WorkerError β → Prop
  | _, .call (.workspaces _ _ offset limit), .ok page =>
      ∃ uuid response, CoderClient.workspaces uuid offset limit response = .ok page
  | _, _, _ => True

/-- The deployment holds these workspaces all the time and serves them in this order. -/
def serves (remote : List CoderWorkspace) : {β : Type} → Op β → Except WorkerError β → Prop
  | _, .call (.workspaces _ none offset limit), result =>
      result = .ok ⟨(remote.drop offset).take limit, remote.length⟩
  | _, _, _ => True

/-- Every page is as full as its offset and its count call for. -/
def filled : {β : Type} → Op β → Except WorkerError β → Prop
  | _, .call (.workspaces _ none offset limit), .ok page =>
      page.items.length = min limit (page.count - offset)
  | _, _, _ => True

theorem filled_of_accepted {β : Type} (o : Op β) (r : Except WorkerError β) (h : accepted o r) :
    filled o r := by
  unfold filled
  split
  · obtain ⟨uuid, response, hpage⟩ := h
    exact CoderClient.workspaces_accepted hpage
  · exact trivial

theorem filled_of_serves {remote : List CoderWorkspace} {β : Type} (o : Op β)
    (r : Except WorkerError β) (h : serves remote o r) : filled o r := by
  unfold filled
  split
  · obtain rfl := Except.ok.inj h
    simp only [List.length_take, List.length_drop]
  · exact trivial

/-- The most page requests a scan makes when the first page states this count. -/
def requestBound (first : Option CoderWorkspacePage) : Nat :=
  match first with
  | none => 1
  | some page => max 1 ((page.count + 99) / 100)

section Heartbeats
variable {bystander : Bystander} {beat h : List WorkerEvent}

def Silent (h : List WorkerEvent) : Prop := ∀ e ∈ h, e.op.isCall = false

theorem Bystander.beat_silent (h : Begins bystander.program beat) : Silent beat := by
  intro e he
  obtain ⟨before, after, hsplit⟩ := List.append_of_mem he
  exact (bystander.silent []).begins (fun _ _ => trivial) h hsplit

theorem Op.isPageRequest_of_silent {β : Type} {o : Op β} (h : o.isCall = false) :
    o.isPageRequest = false := by
  cases o with
  | call c => cases h
  | query q => rfl
  | transaction t => rfl

theorem Op.page?_of_silent {β : Type} {o : Op β} (r : Except WorkerError β) (h : o.isCall = false) :
    o.page? r = none := by
  cases o with
  | call c => cases h
  | query q => rfl
  | transaction t => rfl

theorem pageRequests_silent (silent : Silent beat) : pageRequests (beat ++ h) = pageRequests h := by
  have hnone : pageRequests beat = 0 := by
    refine List.countP_eq_zero.mpr fun e he => ?_
    rw [Op.isPageRequest_of_silent (silent e he)]
    exact Bool.false_ne_true
  rw [pageRequests, List.countP_append]
  exact (congrArg (· + _) hnone).trans (Nat.zero_add _)

theorem pages_silent (silent : Silent beat) : pages (beat ++ h) = pages h := by
  have hnone : pages beat = [] :=
    List.filterMap_eq_nil_iff.mpr fun e he => Op.page?_of_silent e.result (silent e he)
  rw [pages, List.filterMap_append]
  exact (congrArg (· ++ _) hnone).trans (List.nil_append _)

theorem Silent.reverse (silent : Silent beat) : Silent beat.reverse :=
  fun e he => silent e (List.mem_reverse.mp he)

theorem Bystander.obeys {answers : {β : Type} → Op β → Except WorkerError β → Prop}
    {guard : {β : Type} → WorkerHistory → Op β → Prop} (bystander : Bystander)
    (allowed : ∀ h {β : Type} (o : Op β), o.isCall = false → guard h o) :
    Obeys ⟨answers, guard⟩ bystander.program h
      (fun _ h' => ∃ beat, h' = beat ++ h ∧ Silent beat)
      (fun e h' => ∃ beat, h' = beat.reverse ++ h ∧
        Ends bystander.program beat (some (.error e))) := by
  have hkeeps : Keeps ⟨answers, guard⟩ bystander.program h :=
    (bystander.silent h).weaken (fun _ _ _ => trivial) fun h' _ o hsilent => allowed h' o hsilent
  refine hkeeps.completes.raises.mono (fun _ h' hq => ?_) (fun e h' hq => hq.1)
  obtain ⟨⟨beat, rfl, hbeat⟩, -⟩ := hq
  exact ⟨beat.reverse, rfl, (Bystander.beat_silent hbeat.begins).reverse⟩

end Heartbeats

/-- A page is requested first, or while full pages have not reached the count. -/
def pageScanning : Protocol Op WorkerError where
  answers := filled
  guard := fun h o => o.isPageRequest = true → pageRequests h = 0 ∨
    ∃ first, (pages h).getLast? = some first ∧ 100 * pageRequests h < first.count

/-- Where a scan stands: before its first page, or after full pages that have not
reached the count. -/
inductive Paged (h : WorkerHistory) : Option Nat → Nat → List CoderWorkspace → Prop
  | start (fresh : pageRequests h = 0) (unanswered : pages h = []) : Paged h none 0 []
  | later {first : CoderWorkspacePage} {found : List CoderWorkspace}
      (counted : (pages h).getLast? = some first) (full : found.length = 100 * pageRequests h)
      (more : found.length < first.count) : Paged h (some first.count) found.length found

section Scan
variable {bystander : Bystander} {url : InstanceUrl} {h : WorkerHistory} {expected : Option Nat}
  {offset : Nat} {found : List CoderWorkspace}

theorem Paged.beaten {beat : List WorkerEvent} (atPage : Paged h expected offset found)
    (silent : Silent beat) : Paged (beat ++ h) expected offset found := by
  cases atPage with
  | start fresh unanswered =>
      refine .start ?_ ?_
      · rw [pageRequests_silent silent]
        exact fresh
      · rw [pages_silent silent]
        exact unanswered
  | later counted full more =>
      refine .later ?_ ?_ more
      · rw [pages_silent silent]
        exact counted
      · rw [pageRequests_silent silent]
        exact full

theorem Paged.requested (atPage : Paged h expected offset found) :
    pageRequests h = 0 ∨
      ∃ first, (pages h).getLast? = some first ∧ 100 * pageRequests h < first.count := by
  cases atPage with
  | start fresh => exact .inl fresh
  | later counted full more => exact .inr ⟨_, counted, full ▸ more⟩

def pageEvent (url : InstanceUrl) (offset : Nat) (page : CoderWorkspacePage) : WorkerEvent :=
  ⟨.call (.workspaces url none offset Coder.workspacePageSize), .ok page⟩

theorem pages_pageEvent (page : CoderWorkspacePage) :
    pages (pageEvent url offset page :: h) = page :: pages h := rfl

theorem pageRequests_pageEvent (page : CoderWorkspacePage) :
    pageRequests (pageEvent url offset page :: h) = pageRequests h + 1 := by
  simp only [pageRequests, pageEvent, List.countP_cons, Op.isPageRequest, if_true]

variable (url) in
theorem Paged.answered {page : CoderWorkspacePage} (atPage : Paged h expected offset found)
    (full : page.items.length = min 100 (page.count - offset))
    (counted : ¬(expected.any fun count => count ≠ page.count) = true) :
    offset = found.length ∧ ∃ first, (pages (pageEvent url offset page :: h)).getLast? = some first ∧
      first.count = page.count ∧ (offset + page.items.length < page.count →
        (found ++ page.items).length = 100 * pageRequests (pageEvent url offset page :: h)) := by
  rw [pages_pageEvent, pageRequests_pageEvent]
  cases atPage with
  | start fresh unanswered =>
      refine ⟨rfl, page, ?_, rfl, fun hmore => ?_⟩
      · rw [unanswered]
        rfl
      · rw [fresh, List.nil_append]
        omega
  | later hfirst hfull more =>
      rename_i first
      have hcount : first.count = page.count := by simpa using counted
      refine ⟨rfl, first, ?_, hcount, fun hmore => ?_⟩
      · rw [List.getLast?_cons, hfirst]
        rfl
      · rw [List.length_append, hfull]
        omega

theorem sortedById_perm (found : List CoderWorkspace) : (Coder.sortedById found).Perm found :=
  List.perm_insertionSort _ _

theorem sortedById_increasing (distinct : (found.map fun w => w.id).Nodup) :
    ((Coder.sortedById found).map fun w => w.id).Pairwise (· < ·) := by
  have hle : ((Coder.sortedById found).map fun w => w.id).Pairwise (· ≤ ·) :=
    List.pairwise_map.mpr (List.pairwise_insertionSort (fun a b => a.id ≤ b.id) found)
  have hne := ((sortedById_perm found).map fun w => w.id).nodup_iff.mpr distinct
  exact (hle.and hne).imp fun h => lt_of_le_of_ne h.1 h.2

theorem nodup_of_dedup {ids : List UUID} (h : ids.dedup.length = ids.length) : ids.Nodup := by
  have heq := (List.dedup_sublist ids).eq_of_length h
  exact List.dedup_eq_self.mp heq

theorem allPages_scans (fuel : Nat) (atPage : Paged h expected offset found) :
    Obeys pageScanning (Coder.allPages url bystander.program fuel expected offset found) h
      (fun ws h' => ∃ first, (pages h').getLast? = some first ∧ ws.length = first.count ∧
        (ws.map fun w => w.id).Pairwise (· < ·)) (fun _ _ => True) := by
  induction fuel generalizing h expected offset found with
  | zero => exact trivial
  | succ fuel ih =>
      unfold Coder.allPages
      refine obeys_bind.mpr ((bystander.obeys fun h' _ o hsilent hpage => ?_).mono ?_
        fun _ _ _ => trivial)
      · rw [Op.isPageRequest_of_silent hsilent] at hpage
        cases hpage
      · rintro _ _ ⟨beat, rfl, hsilent⟩
        have atPage := atPage.beaten hsilent
        refine obeys_bind.mpr (obeys_perform.mpr ⟨fun _ => atPage.requested, fun page hfull => ?_,
          fun _ _ => trivial⟩)
        dsimp only
        split
        · exact trivial
        rename_i hcounted
        obtain ⟨hoffset, first, hfirst, hcount, hfull⟩ := atPage.answered url hfull hcounted
        split
        · exact trivial
        rename_i hdistinct
        split
        · split
          · exact trivial
          · rename_i hcomplete
            refine ⟨first, hfirst, ?_, ?_⟩
            · rw [(sortedById_perm _).length_eq, hcount]
              omega
            · exact sortedById_increasing (nodup_of_dedup (not_not.mp hdistinct))
        · rename_i hmore
          split
          · exact trivial
          · have hlength : (found ++ page.items).length = offset + page.items.length := by
              rw [List.length_append, hoffset]
            rw [← hlength, ← hcount]
            refine ih (.later hfirst (hfull (Nat.lt_of_not_le hmore)) ?_)
            omega

theorem allPages_distinct {heartbeat : Worker Unit} {run : List WorkerEvent}
    {ws : List CoderWorkspace} (fuel : Nat)
    (completed : Completes (Coder.allPages url heartbeat fuel expected offset found) run ws) :
    (ws.map fun w => w.id).Nodup := by
  induction fuel generalizing run expected offset found with
  | zero => exact absurd completed completes_halt
  | succ fuel ih =>
      unfold Coder.allPages at completed
      obtain ⟨beat, rest, ⟨⟩, rfl, -, hpages⟩ := completes_bind.mp completed
      obtain ⟨asked, rest, page, rfl, -, hrest⟩ := completes_bind.mp hpages
      dsimp only at hrest
      split at hrest
      · exact absurd hrest completes_throw
      split at hrest
      · exact absurd hrest completes_throw
      rename_i hdistinct
      split at hrest
      · split at hrest
        · exact absurd hrest completes_throw
        · obtain ⟨-, rfl⟩ := completes_pure.mp hrest
          have hperm := (sortedById_perm (found ++ page.items)).map fun w => w.id
          exact hperm.nodup_iff.mpr (nodup_of_dedup (not_not.mp hdistinct))
      · split at hrest
        · exact absurd hrest completes_throw
        · exact ih hrest

/-- A scan that uses up its fuel has seen full pages only, all with one count. -/
theorem allPages_halts {run : List WorkerEvent} (fuel : Nat)
    (halted : Ends (Coder.allPages url bystander.program fuel expected offset found) run none)
    (answered : ∀ e ∈ run, filled e.op e.result) : fuel = 0 ∨
      ∃ first, (pages run).head? = some first ∧ (∀ count ∈ expected, count = first.count) ∧
        offset + 100 * fuel < first.count := by
  induction fuel generalizing run expected offset found with
  | zero => exact .inl rfl
  | succ fuel ih =>
      unfold Coder.allPages at halted
      rcases ends_bind halted with ⟨beat, rest, ⟨⟩, rfl, hbeat, hpages⟩ | ⟨e, -, hout⟩ | ⟨hbeat, -⟩
      · rcases ends_bind hpages with ⟨asked, rest, page, rfl, hasked, hrest⟩ | ⟨e, -, hout⟩ | ⟨hhalt, -⟩
        · obtain rfl : asked = [pageEvent url offset page] := completes_perform.mp hasked
          have hpage := answered (pageEvent url offset page) (by simp)
          have hfull : page.items.length = min 100 (page.count - offset) := hpage
          dsimp only at hrest
          split at hrest
          · cases (ends_throw.mp hrest).2
          rename_i hcounted
          split at hrest
          · cases (ends_throw.mp hrest).2
          split at hrest
          · split at hrest
            · cases (ends_throw.mp hrest).2
            · cases (ends_pure.mp hrest).2
          rename_i hmore
          split at hrest
          · cases (ends_throw.mp hrest).2
          have hhead : (pages (beat ++ ([pageEvent url offset page] ++ rest))).head? = some page := by
            rw [pages_silent (Bystander.beat_silent hbeat.begins)]
            rfl
          refine .inr ⟨page, hhead, fun count hcount => ?_, ?_⟩
          · cases expected with
            | none => cases hcount
            | some count' =>
                obtain rfl := Option.some.inj hcount
                simpa using hcounted
          · rcases ih hrest (fun e he => answered e (by simp [he])) with rfl | ⟨first, -, hsame, hlt⟩
            · omega
            · have hcount := hsame page.count rfl
              omega
        · cases hout
        · obtain ⟨r, -, hout⟩ := ends_perform.mp hhalt
          cases hout
      · cases hout
      · exact absurd hbeat (bystander.decides run)

/-- A deployment that stays as it is is scanned completely. -/
theorem allPages_served {remote : List CoderWorkspace} (fuel : Nat)
    (distinct : (remote.map fun w => w.id).Nodup) (counted : ∀ count ∈ expected, count = remote.length)
    (within : offset ≤ remote.length) :
    Obeys ⟨serves remote, fun _ _ => True⟩
      (Coder.allPages url bystander.program fuel expected offset (remote.take offset)) h
      (fun ws _ => ws.Perm remote) (fun e h' => ∃ beat earlier, h' = beat.reverse ++ earlier ∧
        Ends bystander.program beat (some (.error e))) := by
  induction fuel generalizing h expected offset with
  | zero => exact trivial
  | succ fuel ih =>
      unfold Coder.allPages
      refine obeys_bind.mpr ((bystander.obeys fun _ _ _ _ => trivial).mono ?_ ?_)
      · rintro _ _ ⟨beat, rfl, -⟩
        refine obeys_bind.mpr (obeys_perform.mpr ⟨trivial, fun page hserved => ?_, fun e herror => ?_⟩)
        · obtain rfl := Except.ok.inj hserved
          have htake : remote.take offset ++ (remote.drop offset).take Coder.workspacePageSize =
              remote.take (offset + Coder.workspacePageSize) := by
            rw [List.take_add]
          have hlength : ((remote.drop offset).take Coder.workspacePageSize).length =
              min 100 (remote.length - offset) := by
            simp only [List.length_take, List.length_drop, Coder.workspacePageSize]
          dsimp only
          rw [htake, hlength]
          split
          · rename_i hchanged
            cases expected with
            | none => cases hchanged
            | some count =>
                have hne : count ≠ remote.length := by simpa using hchanged
                exact absurd (counted count rfl) hne
          split
          · rename_i hduplicate
            have hfront := (List.take_sublist (offset + Coder.workspacePageSize) remote).map
              fun w => w.id
            have hkept := List.dedup_eq_self.mpr (distinct.sublist hfront)
            exact absurd (congrArg List.length hkept) hduplicate
          split
          · rename_i hover
            have hall : remote.take (offset + Coder.workspacePageSize) = remote :=
              List.take_of_length_le (by simp only [Coder.workspacePageSize]; omega)
            rw [hall]
            split
            · rename_i hincomplete
              exact absurd rfl hincomplete
            · exact sortedById_perm remote
          · rename_i hmore
            split
            · rename_i hempty
              have hzero := congrArg List.length (List.isEmpty_iff.mp hempty)
              rw [hlength, List.length_nil] at hzero
              omega
            · have hnext : offset + min 100 (remote.length - offset) =
                  offset + Coder.workspacePageSize := by
                simp only [Coder.workspacePageSize]
                omega
              rw [hnext]
              refine ih (fun count hcount => (Option.some.inj hcount).symm) ?_
              omega
        · cases herror
      · rintro e h' ⟨beat, rfl, hraised⟩
        exact ⟨beat, h, rfl, hraised⟩

variable {run : List WorkerEvent} {fuel : Nat}

theorem last_of_countP {α : Type 1} {p : α → Bool} {l : List α} (h : l.countP p ≠ 0) :
    ∃ before a after, l = before ++ a :: after ∧ p a = true ∧ after.countP p = 0 := by
  induction l with
  | nil => exact absurd rfl h
  | cons b l ih =>
      by_cases hl : l.countP p = 0
      · refine ⟨[], b, l, rfl, ?_, hl⟩
        by_contra hb
        rw [List.countP_cons, if_neg hb, hl] at h
        exact h rfl
      · obtain ⟨before, a, after, rfl, ha, hafter⟩ := ih hl
        exact ⟨b :: before, a, after, rfl, ha, hafter⟩

theorem allWorkspaces_requests
    (started : Begins (Coder.allWorkspaces url bystander.program fuel) run)
    (answered : ∀ e ∈ run, filled e.op e.result) :
    pageRequests run ≤ requestBound (pages run).head? := by
  have hkeeps : Keeps pageScanning (Coder.allWorkspaces url bystander.program fuel) [] :=
    (allPages_scans fuel (.start rfl rfl)).mono (fun _ _ _ => trivial) (fun _ _ _ => trivial)
  by_cases hnone : pageRequests run = 0
  · rw [hnone]
    exact Nat.zero_le _
  · obtain ⟨before, e, after, rfl, he, hafter⟩ := last_of_countP hnone
    have hguard := hkeeps.begins answered started rfl he
    have hcount : pageRequests (before ++ e :: after) = pageRequests before + 1 := by
      simp only [pageRequests] at hafter ⊢
      rw [List.countP_append, List.countP_cons, if_pos he, hafter]
    rw [hcount]
    have hbefore : pageRequests (before.reverse ++ []) = pageRequests before := by
      rw [List.append_nil, pageRequests, List.countP_reverse]
      rfl
    rw [hbefore] at hguard
    rcases hguard with hfirst | ⟨first, hfirst, hlt⟩
    · rw [hfirst]
      unfold requestBound
      split <;> omega
    · have hhead : (pages (before ++ e :: after)).head? = some first := by
        rw [List.append_nil, pages, List.filterMap_reverse, List.getLast?_reverse] at hfirst
        rw [pages, List.filterMap_append, List.head?_append]
        simp only [hfirst, Option.some_or]
      rw [hhead]
      simp only [requestBound]
      omega

theorem allWorkspaces_complete {ws : List CoderWorkspace}
    (completed : Completes (Coder.allWorkspaces url bystander.program fuel) run ws)
    (answered : ∀ e ∈ run, filled e.op e.result) :
    ∃ first, (pages run).head? = some first ∧ ws.length = first.count ∧
      (ws.map fun w => w.id).Pairwise (· < ·) := by
  have start : Paged [] none 0 [] := .start rfl rfl
  have hend := ((allPages_scans fuel start).ends answered (ends_ok.mpr completed)).1 ws rfl
  obtain ⟨first, hfirst, hrest⟩ := hend
  refine ⟨first, ?_, hrest⟩
  rw [List.append_nil, pages, List.filterMap_reverse, List.getLast?_reverse] at hfirst
  exact hfirst

theorem allWorkspaces_decides
    (halted : Ends (Coder.allWorkspaces url bystander.program fuel) run none)
    (answered : ∀ e ∈ run, filled e.op e.result) : fuel < requestBound (pages run).head? := by
  rcases allPages_halts fuel halted answered with rfl | ⟨first, hfirst, -, hlt⟩
  · unfold requestBound
    split <;> omega
  · rw [hfirst]
    simp only [requestBound]
    omega

theorem allWorkspaces_served {remote : List CoderWorkspace}
    {out : Option (Except WorkerError (List CoderWorkspace))}
    (distinct : (remote.map fun w => w.id).Nodup)
    (ended : Ends (Coder.allWorkspaces url bystander.program fuel) run out)
    (answered : ∀ e ∈ run, serves remote e.op e.result) :
    (∀ ws, out = some (.ok ws) → ws.Perm remote) ∧
      ∀ e, out = some (.error e) → ∃ earlier beat, run = earlier ++ beat ∧
        Ends bystander.program beat (some (.error e)) := by
  have hserved : Obeys ⟨serves remote, fun _ _ => True⟩
      (Coder.allWorkspaces url bystander.program fuel) [] (fun ws _ => ws.Perm remote)
      (fun e h' => ∃ beat earlier, h' = beat.reverse ++ earlier ∧
        Ends bystander.program beat (some (.error e))) :=
    allPages_served fuel distinct (fun _ hcount => nomatch hcount) (Nat.zero_le remote.length)
  obtain ⟨hok, herr⟩ := hserved.ends answered ended
  refine ⟨hok, fun e he => ?_⟩
  obtain ⟨beat, earlier, hrun, hraised⟩ := herr e he
  refine ⟨earlier.reverse, beat, ?_, hraised⟩
  have hreverse := congrArg List.reverse hrun
  simpa using hreverse

end Scan
end CoderManager
