import CoderManager.Domains.Coder
import CoderManager.Lib.Paging

/-!
# Workspaces that change while they are listed

A deployment answers page request after page request, and its workspaces move on
between two of them. The moments of an evolution count these requests; who makes
them and what for is not part of it.
-/
namespace CoderManager
open Programs Paging

/-- How far a workspace has come, along pending, starting, running, stopping and
stopped. -/
def BuildStatus.progress : BuildStatus → Option Nat
  | .pending => some 0
  | .starting => some 1
  | .running => some 2
  | .stopping => some 3
  | .stopped => some 4
  | _ => none

def MovesForward (ws ws' : List CoderWorkspace) : Prop :=
  ∀ w ∈ ws, ∃ w' ∈ ws', w'.id = w.id ∧ ∃ n n', w.status.progress = some n ∧
    w'.status.progress = some n' ∧ n ≤ n'

/-- Workspaces are created and move forward, and are always served in one order. -/
structure Evolution where
  remote : Nat → List CoderWorkspace
  order : UUID → Nat
  forward : ∀ moment, MovesForward (remote moment) (remote (moment + 1))
  ordered : ∀ moment, ((remote moment).map fun w => order w.id).Pairwise (· < ·)

namespace Evolution

/-- The workspaces that have the status asked for, in the order they are served. -/
def listing (e : Evolution) (moment : Nat) : Option BuildStatus → List CoderWorkspace
  | none => e.remote moment
  | some status => (e.remote moment).filter fun w => w.status = status

def page (e : Evolution) (moment : Nat) (status : Option BuildStatus) (offset limit : Nat) :
    CoderWorkspacePage where
  items := ((e.listing moment status).drop offset).take limit
  count := (e.listing moment status).length

def Has (e : Evolution) (moment : Nat) (status : BuildStatus) (id : UUID) : Prop :=
  ∃ w ∈ e.listing moment (some status), w.id = id

/-- How many of those that have the status are served before this workspace. -/
def before (e : Evolution) (moment : Nat) (status : BuildStatus) (id : UUID) : Nat :=
  (e.listing moment (some status)).countP fun w => e.order w.id < e.order id

/-- The workspace is starting or running at every moment from the first to before the last. -/
def ActiveDuring (e : Evolution) (start finish : Nat) (id : UUID) : Prop :=
  ∀ moment, start ≤ moment → moment < finish → e.Has moment .starting id ∨ e.Has moment .running id

/-- The workspace is starting up to a moment and running from then on. -/
def RunsFrom (e : Evolution) (start finish runs : Nat) (id : UUID) : Prop :=
  ∀ moment, start ≤ moment → moment < finish →
    e.Has moment (if moment < runs then .starting else .running) id

end Evolution

def Op.isPageRequest : {β : Type} → Op β → Bool
  | _, .call (.workspaces _ _ _ _) => true
  | _, _ => false

/-- The page requests among these operations, oldest first, are answered from the
evolution, one moment after the other. -/
inductive Evolution.Served (e : Evolution) : List WorkerEvent → Nat → Nat → Prop
  | nil {moment : Nat} : e.Served [] moment moment
  | page {es : List WorkerEvent} {moment finish : Nat} (url : InstanceUrl)
      (status : Option BuildStatus) (offset limit : Nat) (rest : e.Served es (moment + 1) finish) :
      e.Served (⟨.call (.workspaces url status offset limit),
        .ok (e.page moment status offset limit)⟩ :: es) moment finish
  | other {event : WorkerEvent} {es : List WorkerEvent} {moment finish : Nat}
      (other : event.op.isPageRequest = false) (rest : e.Served es moment finish) :
      e.Served (event :: es) moment finish

/-- A deployment that answers page requests from the evolution, and everything else as given. -/
def Evolution.answering (e : Evolution) (others : {β : Type} → Op β → Except WorkerError β) :
    {β : Type} → Nat → Op β → Except WorkerError β × Nat
  | _, moment, .call (.workspaces _ status offset limit) =>
      (.ok (e.page moment status offset limit), moment + 1)
  | _, moment, o => (others o, moment)

namespace Evolution
variable {e : Evolution} {es es' : List WorkerEvent} {start moment finish : Nat} {id : UUID}

theorem served_play (others : {β : Type} → Op β → Except WorkerError β) {α : Type} (p : Worker α) :
    e.Served (p.play (e.answering others) moment).1 moment (p.play (e.answering others) moment).2.2 := by
  induction p generalizing moment with
  | ret a => exact .nil
  | raise e => exact .nil
  | halt => exact .nil
  | call o k ih =>
      cases o with
      | query q => exact .other rfl (ih _)
      | transaction t => exact .other rfl (ih _)
      | call c =>
          cases c with
          | workspaces url status offset limit => exact .page url status offset limit (ih _)
          | _ => exact .other rfl (ih _)

theorem served_append (h : e.Served (es ++ es') start finish) :
    ∃ moment, e.Served es start moment ∧ e.Served es' moment finish := by
  generalize hes : es ++ es' = all at h
  induction h generalizing es with
  | nil =>
      obtain ⟨rfl, rfl⟩ := List.append_eq_nil_iff.mp hes
      exact ⟨_, .nil, .nil⟩
  | page url status offset limit rest ih =>
      cases es with
      | nil =>
          obtain rfl : es' = _ := hes
          exact ⟨_, .nil, .page url status offset limit rest⟩
      | cons event es =>
          obtain ⟨rfl, hrest⟩ := List.cons.inj hes
          obtain ⟨moment, hes, hes'⟩ := ih hrest
          exact ⟨moment, .page url status offset limit hes, hes'⟩
  | other other rest ih =>
      cases es with
      | nil =>
          obtain rfl : es' = _ := hes
          exact ⟨_, .nil, .other other rest⟩
      | cons event es =>
          obtain ⟨rfl, hrest⟩ := List.cons.inj hes
          obtain ⟨moment, hes, hes'⟩ := ih hrest
          exact ⟨moment, .other other hes, hes'⟩

theorem Served.of_quiet (h : e.Served es start finish)
    (quiet : ∀ event ∈ es, event.op.isPageRequest = false) : finish = start := by
  induction h with
  | nil => rfl
  | page => cases quiet _ List.mem_cons_self
  | other _ _ ih => exact ih fun event hevent => quiet event (List.mem_cons_of_mem _ hevent)

theorem Served.page_inv {url : InstanceUrl} {status : Option BuildStatus} {offset limit : Nat}
    {answer : CoderWorkspacePage}
    (h : e.Served [⟨.call (.workspaces url status offset limit), .ok answer⟩] start finish) :
    answer = e.page start status offset limit ∧ finish = start + 1 := by
  cases h with
  | page _ _ _ _ rest => exact ⟨rfl, rest.of_quiet (by simp)⟩
  | other other _ => cases other

section Statuses
variable {status status' : BuildStatus}

theorem has_iff : e.Has moment status id ↔ ∃ w ∈ e.remote moment, w.id = id ∧ w.status = status := by
  simp only [Has, listing, List.mem_filter, decide_eq_true_eq]
  exact exists_congr fun w => and_assoc.trans (and_congr_right fun _ => and_comm)

theorem remote_unique {w w' : CoderWorkspace} (hw : w ∈ e.remote moment) (hw' : w' ∈ e.remote moment)
    (same : w'.id = w.id) : w' = w := by
  have hdistinct : ((e.remote moment).map fun w => e.order w.id).Nodup :=
    (e.ordered moment).imp Nat.ne_of_lt
  exact List.inj_on_of_nodup_map hdistinct hw' hw (congrArg e.order same)

theorem Has.unique (h : e.Has moment status id) (h' : e.Has moment status' id) : status = status' := by
  obtain ⟨w, hw, hid, rfl⟩ := has_iff.mp h
  obtain ⟨w', hw', hid', rfl⟩ := has_iff.mp h'
  rw [remote_unique hw' hw (hid.trans hid'.symm)]

theorem Has.stays_running (h : e.Has moment .running id)
    (active : e.Has (moment + 1) .starting id ∨ e.Has (moment + 1) .running id) :
    e.Has (moment + 1) .running id := by
  rcases active with hstarting | hrunning
  · obtain ⟨w, hw, hid, hstatus⟩ := has_iff.mp h
    obtain ⟨w', hw', hid', n, n', hn, hn', hle⟩ := e.forward moment w hw
    have hstarting' : w'.status = .starting :=
      Has.unique (has_iff.mpr ⟨w', hw', hid'.trans hid, rfl⟩) hstarting
    rw [hstatus] at hn
    rw [hstarting'] at hn'
    cases hn
    cases hn'
    omega
  · exact hrunning

/-- What is active all the time is starting up to some moment and running from it on. -/
theorem ActiveDuring.runsFrom (h : e.ActiveDuring start finish id) :
    ∃ runs, e.RunsFrom start finish runs id := by
  classical
  have hsome : ∃ moment, start ≤ moment ∧ (e.Has moment .running id ∨ finish ≤ moment) :=
    ⟨max start finish, le_max_left _ _, .inr (le_max_right _ _)⟩
  refine ⟨Nat.find hsome, fun moment hstart hfinish => ?_⟩
  split
  · rename_i hbefore
    have hnone := Nat.find_min hsome hbefore
    rcases h moment hstart hfinish with hstarting | hrunning
    · exact hstarting
    · exact absurd ⟨hstart, .inl hrunning⟩ hnone
  · rename_i hafter
    -- From the first moment at which it runs, by induction on the moments since.
    obtain ⟨hge, hfirst⟩ := Nat.find_spec hsome
    have hle := Nat.le_of_not_lt hafter
    clear hafter
    generalize Nat.find hsome = runs at hge hfirst hle
    induction moment, hle using Nat.le_induction with
    | base => exact hfirst.resolve_right (Nat.not_le_of_lt hfinish)
    | succ moment hle ih =>
        have hrunning := ih (by omega) (by omega)
        exact hrunning.stays_running (h _ hstart hfinish)

theorem RunsFrom.active {runs : Nat} (h : e.RunsFrom start finish runs id) :
    e.ActiveDuring start finish id := by
  intro moment hstart hfinish
  have hhas := h moment hstart hfinish
  split at hhas
  · exact .inl hhas
  · exact .inr hhas

theorem RunsFrom.starting {runs : Nat} (h : e.RunsFrom start finish runs id) (ge : start ≤ moment)
    (lt : moment < finish) (before : moment < runs) : e.Has moment .starting id := by
  have hhas := h moment ge lt
  rwa [if_pos before] at hhas

theorem RunsFrom.running {runs : Nat} (h : e.RunsFrom start finish runs id) (ge : start ≤ moment)
    (lt : moment < finish) (since : runs ≤ moment) : e.Has moment .running id := by
  have hhas := h moment ge lt
  rwa [if_neg (Nat.not_lt_of_le since)] at hhas

end Statuses

end Evolution
end CoderManager
