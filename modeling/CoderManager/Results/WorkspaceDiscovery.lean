import CoderManager.Discipline.Rules
import CoderManager.Domains.WorkspaceEvolution

/-!
# Discovery of active workspaces

`_active_workspaces` asks for one status after the other, page by page, while
the workspaces change. Whether it finds a workspace that was active all the time
is decided by when that workspace began to run and by how many were served
before it.
-/
namespace CoderManager
open Programs Paging

/-- The heartbeat a scan is given: none, or that of the attempt it runs in. -/
inductive Heartbeat where
  | none
  | owned (claim : ExecutionClaim) (lost : WorkerError)

def Heartbeat.program : Heartbeat → Worker Unit
  | .none => pure ()
  | .owned claim lost => heartbeatOwned claim lost

theorem Heartbeat.quiet {heartbeat : Heartbeat} {es : List WorkerEvent} {a : Unit}
    (h : Completes heartbeat.program es a) : ∀ e ∈ es, e.op.isPageRequest = false := by
  intro e he
  cases heartbeat with
  | none =>
      obtain ⟨rfl, -⟩ := completes_pure.mp h
      cases he
  | owned claim lost =>
      obtain ⟨first, rest, current, rfl, hfirst, hrest⟩ := completes_bind.mp h
      obtain rfl := completes_perform.mp hfirst
      cases current with
      | false => exact hrest.elim
      | true =>
          obtain ⟨rfl, -⟩ := completes_pure.mp hrest
          obtain rfl := List.mem_singleton.mp he
          rfl

def Found (found : List CoderWorkspace) (id : UUID) : Prop := ∃ w ∈ found, w.id = id

theorem found_upsert {found : List CoderWorkspace} {w : CoderWorkspace} {id : UUID} :
    Found (Coder.upsert found w) id ↔ Found found id ∨ w.id = id := by
  unfold Coder.upsert Found
  split
  · rename_i hany
    simp only [List.any_eq_true, beq_iff_eq] at hany
    obtain ⟨f, hf, hfw⟩ := hany
    simp only [List.mem_map]
    constructor
    · rintro ⟨w', ⟨f', hf', rfl⟩, rfl⟩
      by_cases h : f'.id = w.id
      · exact .inr (by simp [h])
      · exact .inl ⟨f', hf', by simp [h]⟩
    · rintro (⟨f', hf', rfl⟩ | rfl)
      · refine ⟨_, ⟨f', hf', rfl⟩, ?_⟩
        by_cases h : f'.id = w.id
        · simp [h]
        · simp [h]
      · exact ⟨_, ⟨f, hf, rfl⟩, by simp [hfw]⟩
  · simp only [List.mem_append, List.mem_singleton]
    constructor
    · rintro ⟨w', hw' | rfl, rfl⟩
      · exact .inl ⟨w', hw', rfl⟩
      · exact .inr rfl
    · rintro (⟨w', hw', rfl⟩ | rfl)
      · exact ⟨w', .inl hw', rfl⟩
      · exact ⟨w, .inr rfl, rfl⟩

theorem found_foldl {found items : List CoderWorkspace} {id : UUID} :
    Found (items.foldl Coder.upsert found) id ↔ Found found id ∨ Found items id := by
  induction items generalizing found with
  | nil => simp [Found]
  | cons w items ih =>
      rw [List.foldl_cons, ih, found_upsert, or_assoc]
      simp [Found]

namespace Evolution

/-- A pass over the pages of a status that begins at this moment asks for this page
last: no more workspaces have the status than the pages so far can show. -/
def LastPage (e : Evolution) (status : BuildStatus) (start last : Nat) : Prop :=
  (e.listing (start + last) (some status)).length ≤ (last + 1) * Coder.workspacePageSize ∧
    ∀ n < last, (n + 1) * Coder.workspacePageSize < (e.listing (start + n) (some status)).length

/-- A scan that begins at the first moment meets a workspace that is active until the
last. If it runs before the pass over the running workspaces is over, then at one of
that pass's requests from there on the number of running workspaces served before it
falls into the page asked for. Otherwise this is so of the starting workspaces at a
request of the next pass, made before it runs. -/
def Met (e : Evolution) (start finish : Nat) (id : UUID) : Prop :=
  ∃ running starting runs, e.LastPage .running start running ∧
    e.LastPage .starting (start + running + 1) starting ∧ e.RunsFrom start finish runs id ∧
    if runs ≤ start + running then
      ∃ n ≤ running, runs ≤ start + n ∧
        e.before (start + n) .running id / Coder.workspacePageSize = n
    else
      ∃ n ≤ starting, start + running + 1 + n < runs ∧
        e.before (start + running + 1 + n) .starting id / Coder.workspacePageSize = n

/-- A scan that returned. -/
structure Scan (e : Evolution) where
  start : Nat
  finish : Nat
  url : InstanceUrl
  heartbeat : Heartbeat
  fuel : Nat
  events : List WorkerEvent
  result : List CoderWorkspace
  returned : Completes (Coder.activeWorkspaces url heartbeat.program fuel) events result
  served : e.Served events start finish

/-- A `stop_active_workspaces` that returned. -/
structure Stop (e : Evolution) where
  start : Nat
  finish : Nat
  url : InstanceUrl
  password : String
  heartbeat : Heartbeat
  fuel : Nat
  events : List WorkerEvent
  stopped : List UUID
  returned : Completes (Coder.stopActiveWorkspaces url password heartbeat.program fuel) events stopped
  served : e.Served events start finish

section Passes
variable {e : Evolution} {url : InstanceUrl} {heartbeat : Heartbeat} {status : BuildStatus}
  {fuel start finish : Nat} {found result : List CoderWorkspace} {es : List WorkerEvent} {id : UUID}

theorem LastPage.unique {last last' : Nat} (h : e.LastPage status start last)
    (h' : e.LastPage status start last') : last = last' := by
  rcases Nat.lt_trichotomy last last' with hlt | heq | hgt
  · exact absurd h.1 (Nat.not_le_of_lt (h'.2 last hlt))
  · exact heq
  · exact absurd h'.1 (Nat.not_le_of_lt (h.2 last' hgt))

/-- The workspace stands on a page of a pass when that page is asked for. -/
def Shown (e : Evolution) (status : BuildStatus) (start last : Nat) (id : UUID) : Prop :=
  ∃ n ≤ last, e.Has (start + n) status id ∧
    e.before (start + n) status id / Coder.workspacePageSize = n

theorem found_page {moment number : Nat} :
    Found (Paging.page Coder.workspacePageSize (e.listing moment (some status)) number) id ↔
      e.Has moment status id ∧ e.before moment status id / Coder.workspacePageSize = number := by
  have hsorted : ((e.listing moment (some status)).map fun w => e.order w.id).Pairwise (· < ·) :=
    (e.ordered moment).sublist (List.filter_sublist.map _)
  constructor
  · rintro ⟨w, hw, rfl⟩
    have hmem := mem_of_mem_page hw
    exact ⟨⟨w, hmem, rfl⟩, (mem_page_iff (by decide) hsorted hmem).mp hw⟩
  · rintro ⟨⟨w, hmem, rfl⟩, hnumber⟩
    exact ⟨w, (mem_page_iff (by decide) hsorted hmem).mpr hnumber, rfl⟩

theorem activePages_found {number : Nat}
    (h : Completes (Coder.activePages url heartbeat.program status fuel
      (number * Coder.workspacePageSize) found) es result)
    (hs : e.Served es (start + number) finish) :
    ∃ last, number ≤ last ∧ finish = start + last + 1 ∧
      (e.listing (start + last) (some status)).length ≤ (last + 1) * Coder.workspacePageSize ∧
      (∀ n, number ≤ n → n < last →
        (n + 1) * Coder.workspacePageSize < (e.listing (start + n) (some status)).length) ∧
      ∀ id, Found result id ↔ Found found id ∨ ∃ n, number ≤ n ∧ n ≤ last ∧
        Found (Paging.page Coder.workspacePageSize (e.listing (start + n) (some status)) n) id := by
  induction fuel generalizing number found es with
  | zero => exact h.elim
  | succ fuel ih =>
      obtain ⟨beat, es₁, _, rfl, hbeat, h₁⟩ := completes_bind.mp h
      obtain ⟨asked, es₂, answer, rfl, hasked, h₂⟩ := completes_bind.mp h₁
      obtain rfl := completes_perform.mp hasked
      obtain ⟨moment, hs₀, hs₁⟩ := served_append hs
      obtain rfl := hs₀.of_quiet (Heartbeat.quiet hbeat)
      obtain ⟨moment, hfirst, hs₂⟩ := served_append hs₁
      obtain ⟨rfl, rfl⟩ := hfirst.page_inv
      generalize hlisting : e.listing (start + number) (some status) = ws at *
      have hitems : (e.page (start + number) (some status) (number * Coder.workspacePageSize)
          Coder.workspacePageSize).items = Paging.page Coder.workspacePageSize ws number := by
        rw [← hlisting]
        rfl
      have hcount : (e.page (start + number) (some status) (number * Coder.workspacePageSize)
          Coder.workspacePageSize).count = ws.length := by
        rw [← hlisting]
        rfl
      simp only [hitems, hcount] at h₂
      have hlength : (Paging.page Coder.workspacePageSize ws number).length =
          min Coder.workspacePageSize (ws.length - number * Coder.workspacePageSize) := by
        simp [Paging.page]
      by_cases hlast : ws.length ≤ number * Coder.workspacePageSize +
          (Paging.page Coder.workspacePageSize ws number).length
      · rw [if_pos hlast] at h₂
        obtain ⟨rfl, rfl⟩ := completes_pure.mp h₂
        obtain rfl := hs₂.of_quiet (by simp)
        refine ⟨number, le_rfl, rfl, ?_, fun n hge hlt => absurd hlt (Nat.not_lt_of_le hge), ?_⟩
        · rw [hlisting, Nat.add_mul, Nat.one_mul]
          omega
        · intro id
          rw [found_foldl]
          refine or_congr_right ⟨fun hpage => ⟨number, le_rfl, le_rfl, by rwa [hlisting]⟩, ?_⟩
          rintro ⟨n, hge, hle, hpage⟩
          obtain rfl := Nat.le_antisymm hge hle
          rwa [hlisting] at hpage
      · rw [if_neg hlast] at h₂
        -- A page that does not end the list is full, so the next offset is a whole page on.
        have hfull := length_page (Nat.lt_of_not_le hlast)
        have hmore : (Paging.page Coder.workspacePageSize ws number).isEmpty = false := by
          rw [List.isEmpty_eq_false_iff, ← List.length_pos_iff, hfull]
          decide
        rw [hmore, hfull, ← Nat.succ_mul] at h₂
        obtain ⟨last, hge, hfinish, hend, hgo, hfound⟩ := ih h₂ hs₂
        refine ⟨last, by omega, hfinish, hend, fun n hn hlt => ?_, fun id => ?_⟩
        · rcases Nat.eq_or_lt_of_le hn with rfl | hn
          · rw [hlisting, Nat.add_mul, Nat.one_mul]
            omega
          · exact hgo n hn hlt
        · rw [hfound id, found_foldl, or_assoc]
          refine or_congr_right ⟨?_, ?_⟩
          · rintro (hpage | ⟨n, hn, hle, hpage⟩)
            · exact ⟨number, le_rfl, by omega, by rwa [hlisting]⟩
            · exact ⟨n, by omega, hle, hpage⟩
          · rintro ⟨n, hn, hle, hpage⟩
            rcases Nat.eq_or_lt_of_le hn with rfl | hn
            · exact .inl (by rwa [hlisting] at hpage)
            · exact .inr ⟨n, hn, hle, hpage⟩

theorem pass_found (h : Completes (Coder.activePages url heartbeat.program status fuel 0 found) es result)
    (hs : e.Served es start finish) :
    ∃ last, e.LastPage status start last ∧ finish = start + last + 1 ∧
      ∀ id, Found result id ↔ Found found id ∨ e.Shown status start last id := by
  rw [← Nat.zero_mul Coder.workspacePageSize] at h
  obtain ⟨last, -, hfinish, hend, hgo, hfound⟩ := activePages_found h hs
  refine ⟨last, ⟨hend, fun n hlt => hgo n (Nat.zero_le n) hlt⟩, hfinish, fun id => ?_⟩
  rw [hfound id]
  refine or_congr_right (exists_congr fun n => ?_)
  rw [found_page]
  exact and_iff_right (Nat.zero_le n)

theorem scan_found (scan : e.Scan) : ∃ running starting stopping,
    e.LastPage .running scan.start running ∧
    e.LastPage .starting (scan.start + running + 1) starting ∧
    scan.finish = scan.start + running + 1 + starting + 1 + stopping + 1 ∧
    ∀ id, Found scan.result id ↔ e.Shown .running scan.start running id ∨
      e.Shown .starting (scan.start + running + 1) starting id ∨
      e.Shown .stopping (scan.start + running + 1 + starting + 1) stopping id := by
  obtain ⟨es, es₁, found, hevents, hpasses, hsorted⟩ := completes_bind.mp scan.returned
  obtain ⟨rfl, hresult⟩ := completes_pure.mp hsorted
  obtain ⟨es₁, _, found₁, rfl, h₁, hpasses⟩ := completes_bind.mp hpasses
  obtain ⟨es₂, _, found₂, rfl, h₂, hpasses⟩ := completes_bind.mp hpasses
  obtain ⟨es₃, _, found₃, rfl, h₃, hpasses⟩ := completes_bind.mp hpasses
  obtain ⟨rfl, rfl⟩ := completes_pure.mp hpasses
  have hserved := scan.served
  rw [hevents, List.append_nil, List.append_nil] at hserved
  obtain ⟨moment, hs₁, hserved⟩ := served_append hserved
  obtain ⟨moment, hs₂, hs₃⟩ := served_append hserved
  obtain ⟨running, hrunning, rfl, hfound₁⟩ := pass_found h₁ hs₁
  obtain ⟨starting, hstarting, rfl, hfound₂⟩ := pass_found h₂ hs₂
  obtain ⟨stopping, -, hfinish, hfound₃⟩ := pass_found h₃ hs₃
  refine ⟨running, starting, stopping, hrunning, hstarting, hfinish, fun id => ?_⟩
  have hsame : Found scan.result id ↔ Found found₃ id := by
    simp [← hresult, Found, Coder.sortedById, List.mem_insertionSort]
  have hnone : ¬Found [] id := by simp [Found]
  rw [hsame, hfound₃ id, hfound₂ id, hfound₁ id, or_assoc, or_assoc, or_iff_right hnone]

/-- What is active all the time is found exactly if it is met. -/
theorem scan_meets (scan : e.Scan) (active : e.ActiveDuring scan.start scan.finish id) :
    Found scan.result id ↔ e.Met scan.start scan.finish id := by
  obtain ⟨running, starting, stopping, hrunning, hstarting, hfinish, hfound⟩ := scan_found scan
  rw [hfound id]
  constructor
  · obtain ⟨runs, hruns⟩ := active.runsFrom
    rintro (⟨n, hle, hhas, hpage⟩ | ⟨n, hle, hhas, hpage⟩ | ⟨n, hle, hhas, hpage⟩)
    · have hsince : runs ≤ scan.start + n := by
        by_contra hbefore
        cases hhas.unique (hruns.starting (by omega) (by omega) (by omega))
      refine ⟨running, starting, runs, hrunning, hstarting, hruns, ?_⟩
      rw [if_pos (by omega)]
      exact ⟨n, hle, hsince, hpage⟩
    · have hbefore : scan.start + running + 1 + n < runs := by
        by_contra hsince
        cases hhas.unique (hruns.running (by omega) (by omega) (by omega))
      refine ⟨running, starting, runs, hrunning, hstarting, hruns, ?_⟩
      rw [if_neg (by omega)]
      exact ⟨n, hle, hbefore, hpage⟩
    · -- What is stopping is not active.
      rcases active (scan.start + running + 1 + starting + 1 + n) (by omega) (by omega) with
        hactive | hactive
      · cases hhas.unique hactive
      · cases hhas.unique hactive
  · rintro ⟨running', starting', runs, hrunning', hstarting', hruns, hmet⟩
    obtain rfl := hrunning.unique hrunning'
    obtain rfl := hstarting.unique hstarting'
    split at hmet
    · obtain ⟨n, hle, hsince, hpage⟩ := hmet
      exact .inl ⟨n, hle, hruns.running (by omega) (by omega) hsince, hpage⟩
    · obtain ⟨n, hle, hbefore, hpage⟩ := hmet
      exact .inr (.inl ⟨n, hle, hruns.starting (by omega) (by omega) hbefore, hpage⟩)

theorem stopRounds_last {url : InstanceUrl} {heartbeat : Heartbeat} {fuel : Nat}
    {stopped stopped' : List UUID} {es : List WorkerEvent}
    (h : Completes (Coder.stopRounds url heartbeat.program fuel stopped) es stopped') :
    ∃ fuel' earlier last, es = earlier ++ last ∧
      Completes (Coder.activeWorkspaces url heartbeat.program fuel') last [] := by
  induction fuel generalizing stopped es with
  | zero => exact h.elim
  | succ fuel ih =>
      obtain ⟨es₁, es₂, _, rfl, -, h⟩ := completes_bind.mp h
      obtain ⟨es₃, es₄, active, rfl, hactive, h⟩ := completes_bind.mp h
      cases active with
      | nil =>
          obtain ⟨rfl, -⟩ := completes_pure.mp h
          exact ⟨fuel, es₁, es₃, by rw [List.append_nil], hactive⟩
      | cons w active =>
          obtain ⟨es₅, es₆, pending, rfl, -, h⟩ := completes_bind.mp h
          obtain ⟨es₇, es₈, _, rfl, -, h⟩ := completes_bind.mp h
          obtain ⟨fuel', earlier, last, rfl, hlast⟩ := ih h
          exact ⟨fuel', es₁ ++ (es₃ ++ (es₅ ++ (es₇ ++ earlier))), last, by simp, hlast⟩

theorem met_of_steady (scan : e.Scan) (active : e.ActiveDuring scan.start scan.finish id)
    (steady : ∀ moment, scan.start ≤ moment → moment < scan.finish →
      e.remote moment = e.remote scan.start) : e.Met scan.start scan.finish id := by
  obtain ⟨running, starting, stopping, hrunning, hstarting, hfinish, -⟩ := scan_found scan
  have hlisting : ∀ status moment, scan.start ≤ moment → moment < scan.finish →
      e.listing moment (some status) = e.listing scan.start (some status) := by
    intro status moment hge hlt
    rw [listing, listing, steady moment hge hlt]
  -- A pass over the status it keeps shows the page its place is on.
  have hpage : ∀ status first last, e.LastPage status first last → scan.start ≤ first →
      first + last < scan.finish → e.Has scan.start status id →
      ∃ n ≤ last, e.before (first + n) status id / Coder.workspacePageSize = n := by
    rintro status first last ⟨hend, -⟩ hge hlt ⟨w, hw, rfl⟩
    rw [hlisting status _ (by omega) hlt] at hend
    have hplace : e.before scan.start status w.id < (e.listing scan.start (some status)).length := by
      rw [before, List.countP_eq_length_filter]
      exact List.length_filter_lt_length_iff_exists.mpr ⟨w, hw, by simp⟩
    have hpage := Nat.div_lt_of_lt_mul (Nat.mul_comm _ _ ▸ hplace.trans_le hend)
    generalize hn : e.before scan.start status w.id / Coder.workspacePageSize = n at hpage
    refine ⟨n, by omega, ?_⟩
    rw [before, hlisting status _ (by omega) (by omega), ← hn]
    rfl
  rcases active scan.start le_rfl (by omega) with hhas | hhas
  · refine ⟨running, starting, scan.finish, hrunning, hstarting, ?_, ?_⟩
    · intro moment hge hlt
      rw [if_pos hlt, Has, hlisting _ moment hge hlt]
      exact hhas
    · rw [if_neg (by omega)]
      obtain ⟨n, hle, hn⟩ := hpage _ _ _ hstarting (by omega) (by omega) hhas
      exact ⟨n, hle, by omega, hn⟩
  · refine ⟨running, starting, scan.start, hrunning, hstarting, ?_, ?_⟩
    · intro moment hge hlt
      rw [if_neg (Nat.not_lt_of_le hge), Has, hlisting _ moment hge hlt]
      exact hhas
    · rw [if_pos (by omega)]
      obtain ⟨n, hle, hn⟩ := hpage _ _ _ hrunning le_rfl (by omega) hhas
      exact ⟨n, hle, by omega, hn⟩

theorem Stop.last (stop : e.Stop) : ∃ last : e.Scan, last.events <:+ stop.events ∧
    last.finish = stop.finish ∧ last.result = [] := by
  obtain ⟨es₁, es₂, _, hes, -, h⟩ := completes_bind.mp stop.returned
  obtain ⟨fuel', earlier, last, rfl, hlast⟩ := stopRounds_last h
  have hserved := stop.served
  rw [hes, ← List.append_assoc] at hserved
  obtain ⟨moment, -, hs⟩ := served_append hserved
  let scan : e.Scan := {
    start := moment, finish := stop.finish, url := stop.url, heartbeat := stop.heartbeat
    fuel := fuel', events := last, result := [], returned := hlast, served := hs }
  exact ⟨scan, ⟨es₁ ++ earlier, by rw [List.append_assoc, hes]⟩, rfl, rfl⟩

end Passes

end Evolution

/-- A scan finds every workspace that is active all the time exactly when the evolution
lets it meet each of them; and no workspace was active all through the last scan of a
stop that returned exactly when it would have met each of them. -/
theorem workspace_discovery_iff {e e' : Evolution} (scan : e.Scan) (stop : e'.Stop) :
    ((∀ id, e.ActiveDuring scan.start scan.finish id → Found scan.result id) ↔
      ∀ id, e.ActiveDuring scan.start scan.finish id → e.Met scan.start scan.finish id) ∧
    ∃ last : e'.Scan, last.events <:+ stop.events ∧ last.finish = stop.finish ∧ last.result = [] ∧
      ((∀ id, ¬e'.ActiveDuring last.start last.finish id) ↔
        ∀ id, e'.ActiveDuring last.start last.finish id → e'.Met last.start last.finish id) := by
  constructor
  · exact forall_congr' fun id => imp_congr_right fun active => Evolution.scan_meets scan active
  · obtain ⟨last, hevents, hfinish, hresult⟩ := stop.last
    refine ⟨last, hevents, hfinish, hresult, forall_congr' fun id => imp_congr_right fun active => ?_⟩
    rw [← Evolution.scan_meets last active, hresult]
    simp [Found]

section Examples

def workspaceAt (id : UUID) (status : BuildStatus) : CoderWorkspace where
  id := id
  status := status
  latestBuildId := id + 1000
  latestBuildTransition := .start
  name := "dev"
  templateId := none

def crowd : Evolution where
  remote := fun _ => (List.range 101).map fun id => workspaceAt id .running
  order := id
  forward := by
    intro _ w hw
    obtain ⟨id, -, rfl⟩ := List.mem_map.mp hw
    exact ⟨_, hw, rfl, 2, 2, rfl, rfl, le_rfl⟩
  ordered := fun _ => by decide +kernel

/-- Workspace 7 runs, workspace 8 is created when 7 has stopped and begins to run, and
stops in turn. -/
def windingDown : Evolution where
  remote := fun moment =>
    if moment < 3 then [workspaceAt 7 .running]
    else if moment < 6 then [workspaceAt 7 .stopped, workspaceAt 8 .running]
    else [workspaceAt 7 .stopped, workspaceAt 8 .stopped]
  order := id
  forward := by
    intro moment
    split_ifs <;> first
      | omega
      | simp [MovesForward, BuildStatus.progress, workspaceAt]
  ordered := by
    intro moment
    split
    · decide
    · split
      · decide
      · decide

/-- Every stop build is accepted and has stopped its workspace when it is asked for. -/
def stopsEverything : {β : Type} → Op β → Except WorkerError β
  | _, .call (.authenticatePreparedAdmin _ _) => .ok ()
  | _, .call .beforeDeadline => .ok true
  | _, .call (.createWorkspaceStopBuild _ id) => .ok ⟨id + 1000, .pending, .stop⟩
  | _, .call (.workspaceBuild _ id) => .ok ⟨id, .stopped, .stop⟩
  | _, _ => .error .httpError

def crowdListed := (Coder.activeWorkspaces 1 (pure ()) 2).play (crowd.answering stopsEverything) 0

def crowdScan : crowd.Scan where
  start := 0
  finish := crowdListed.2.2
  url := 1
  heartbeat := .none
  fuel := 2
  events := crowdListed.1
  result := crowd.remote 0
  returned := Prog.play_completes (by decide +kernel)
  served := Evolution.served_play stopsEverything _

def woundDown :=
  (Coder.stopActiveWorkspaces 1 "pw" (pure ()) 5).play (windingDown.answering stopsEverything) 0

/-- The stop scans three times: it finds workspace 7, then 8, then none. -/
def windingStop : windingDown.Stop where
  start := 0
  finish := woundDown.2.2
  url := 1
  password := "pw"
  heartbeat := .none
  fuel := 5
  events := woundDown.1
  stopped := [7, 8]
  returned := Prog.play_completes (by decide +kernel)
  served := Evolution.served_play stopsEverything _

theorem everything_discovered :
    (∀ id < 101, Found crowdScan.result id) ∧
    ∃ last : windingDown.Scan, last.finish = 9 ∧ last.result = [] ∧
      ∀ id, ¬windingDown.ActiveDuring last.start last.finish id := by
  obtain ⟨hscan, last, -, hfinish, hresult, hlast⟩ := workspace_discovery_iff crowdScan windingStop
  have hnine : last.finish = 9 := hfinish.trans (by decide +kernel)
  constructor
  · intro id hid
    refine hscan.mpr (fun id active => Evolution.met_of_steady crowdScan active fun _ _ _ => rfl) id ?_
    intro moment _ _
    exact .inr ⟨workspaceAt id .running, by simpa [Evolution.listing, crowd, workspaceAt] using hid, rfl⟩
  · refine ⟨last, hnine, hresult, hlast.mpr fun id active => ?_⟩
    obtain ⟨_, _, _, -, -, hpasses, -⟩ := Evolution.scan_found last
    rcases active 8 (by omega) (by omega) with hactive | hactive
    · simp [Evolution.Has, Evolution.listing, windingDown, workspaceAt] at hactive
    · simp [Evolution.Has, Evolution.listing, windingDown, workspaceAt] at hactive

/-- A workspace that begins to run after the first page was asked for. -/
def startedMeanwhile : Evolution where
  remote := fun moment => [workspaceAt 7 (if moment = 0 then .starting else .running)]
  order := id
  forward := by
    intro moment
    split_ifs <;> simp_all [MovesForward, BuildStatus.progress, workspaceAt]
  ordered := by simp

def startedListed :=
  (Coder.activeWorkspaces 1 (pure ()) 1).play (startedMeanwhile.answering stopsEverything) 0

/-- Asked for the running workspaces first, the deployment has it starting; asked
for the starting ones, it has it running. -/
theorem started_meanwhile_missed : ¬∀ (e : Evolution) (scan : e.Scan) (id : UUID),
    e.ActiveDuring scan.start scan.finish id → Found scan.result id := by
  intro h
  let scan : startedMeanwhile.Scan := {
    start := 0
    finish := startedListed.2.2
    url := 1
    heartbeat := .none
    fuel := 1
    events := startedListed.1
    result := []
    returned := Prog.play_completes (by decide +kernel)
    served := Evolution.served_play stopsEverything _ }
  obtain ⟨w, hw, -⟩ := h startedMeanwhile scan 7 fun moment _ _ => by
    by_cases hfirst : moment = 0
    · simp [Evolution.Has, Evolution.listing, startedMeanwhile, workspaceAt, hfirst]
    · simp [Evolution.Has, Evolution.listing, startedMeanwhile, workspaceAt, hfirst]
  cases hw

end Examples

end CoderManager
