import CoderManager.Domains.ArgoCdServer
import CoderManager.Results.ApplicationStamps

/-!
# Many clients on one Argo CD server

Calls for any number of instances run on one server, several of them for the same
instance, beside other users. Between the read that allows a mutation and the mutation
anything may happen. It still meets the Application of its own instance, unless somebody
else has put another one under that name in between.
-/
namespace CoderManager
namespace ArgoCd
open Programs

abbrev ServerEntry (σ ζ : Type) := Entry Request ArgoCdError σ (Elsewhere ζ)

namespace ApplicationService
variable {σ ρ ζ : Type} (S : ApplicationService σ ρ ζ)

/-- The Application under the name, if there is one, is the instance's. -/
def OwnAt (s : σ) (name : String) (instanceId : UUID) : Prop :=
  ∀ application, S.application s name = some application →
    applicationOwner application = some (.str (toString instanceId))

/-- Somebody else puts an Application under the name that is not the instance's. -/
def Takes (s : σ) (name : String) (instanceId : UUID) : Elsewhere ζ → Prop
  | .other other change => other = name ∧ ¬S.OwnAt (S.intervene name change s) name instanceId
  | .reconciled _ _ => False

def Taken (name : String) (instanceId : UUID) (x : ServerEntry σ ζ) : Prop :=
  ∃ e, x.what = .changed e ∧ S.Takes x.before name instanceId e

section Server
variable {S} {s s' : σ} {name : String} {instanceId : UUID}

theorem OwnAt.spared {other : String} (h : S.OwnAt s name instanceId) (spares : S.Spares s s' other)
    (ne : name ≠ other) : S.OwnAt s' name instanceId := by
  intro application found
  exact h application ((spares name ne).symm.trans found)

theorem OwnAt.advanced {other : String} (h : S.OwnAt s name instanceId)
    (advances : S.Advances s s' other) : S.OwnAt s' name instanceId := by
  by_cases hname : name = other
  · subst hname
    intro application found
    obtain ⟨before, row, hlabels⟩ := advances.labels application found
    rw [applicationOwner_eq, hlabels, ← applicationOwner_eq]
    exact h before row
  · exact h.spared advances.spares hname

theorem OwnAt.put {other : String} {payload : Json} (h : S.OwnAt s name instanceId)
    (puts : S.Puts s s' other payload)
    (own : other = name → applicationOwner payload = some (.str (toString instanceId))) :
    S.OwnAt s' name instanceId := by
  by_cases hname : name = other
  · subst hname
    intro application found
    rcases puts.labels application found with hkept | hgiven
    · exact h application hkept
    · rw [applicationOwner_eq]
      exact hgiven _ _ ((applicationOwner_eq payload).symm.trans (own rfl))
  · exact h.spared puts.spares hname

variable [S.Lawful]

/-- A call leaves an Application to its instance, its own to itself. -/
theorem OwnAt.perform {client : ArgoCdClient} {call : Call} {h : List RequestEvent} {β : Type}
    {o : Request β} {decision : ρ} (own : S.OwnAt s name instanceId)
    (allowed : (conduct client call).guard h o)
    (same : call.name client = name → call.instanceId = instanceId) :
    S.OwnAt (S.perform o decision s).2 name instanceId := by
  obtain ⟨hsend, hstamp⟩ := allowed
  cases o with
  | getApplication other =>
      intro application found
      rw [Lawful.reads] at found
      exact own application found
  | createApplication payload =>
      obtain ⟨hname, howner⟩ := hstamp
      apply own.put (Lawful.creates payload (call.name client) decision s hname)
      intro heq
      rw [howner, same heq]
  | updateApplication other payload =>
      obtain ⟨rfl, -⟩ := hsend
      obtain ⟨howner, -⟩ := hstamp
      apply own.put (Lawful.updates (call.name client) payload decision s)
      intro heq
      rw [howner, same heq]
  | deleteApplication other => exact own.advanced (Lawful.deletes other decision s)
  | syncApplication other => exact own.advanced (Lawful.syncs other decision s)

theorem OwnAt.react {e : Elsewhere ζ} (own : S.OwnAt s name instanceId)
    (untaken : ¬S.Takes s name instanceId e) : S.OwnAt (S.react e s) name instanceId := by
  cases e with
  | reconciled other change => exact own.advanced (Lawful.reconciles other change s)
  | other other change =>
      by_cases hname : other = name
      · subst hname
        by_contra hother
        exact untaken ⟨rfl, hother⟩
      · exact own.spared (Lawful.intervenes other change s) (Ne.symm hname)

theorem spares_perform {client : ArgoCdClient} {call : Call} {h : List RequestEvent} {β : Type}
    {o : Request β} {decision : ρ} (allowed : (conduct client call).guard h o) :
    S.Spares s (S.perform o decision s).2 (call.name client) := by
  obtain ⟨hsend, hstamp⟩ := allowed
  cases o with
  | getApplication other => exact fun name _ => Lawful.reads other decision s name
  | createApplication payload => exact (Lawful.creates payload _ decision s hstamp.1).spares
  | updateApplication other payload =>
      obtain ⟨rfl, -⟩ := hsend
      exact (Lawful.updates _ payload decision s).spares
  | deleteApplication other =>
      obtain ⟨rfl, -⟩ := hsend
      exact (Lawful.deletes _ decision s).spares
  | syncApplication other =>
      obtain ⟨rfl, -⟩ := hsend
      exact (Lawful.syncs _ decision s).spares

theorem spares_react (e : Elsewhere ζ) : S.Spares s (S.react e s) e.name := by
  cases e with
  | reconciled name change => exact (Lawful.reconciles name change s).spares
  | other name change => exact Lawful.intervenes name change s

end Server
end ApplicationService
open ApplicationService

def NamesApart (client : ArgoCdClient) (calls : List Call) : Prop :=
  ∀ call ∈ calls, ∀ call' ∈ calls,
    call.name client = call'.name client → call.instanceId = call'.instanceId

def Request.changes? : {β : Type} → Request β → Option String
  | _, .updateApplication name _ | _, .deleteApplication name | _, .syncApplication name =>
      some name
  | _, .getApplication _ | _, .createApplication _ => none

/-- The last time a thread has read the Application, and what happened since. -/
structure LastLook {σ ζ : Type} (name : String) (i : Nat) (u : σ) (since : List (ServerEntry σ ζ))
    (t : List (ServerEntry σ ζ)) : Prop where
  looked : ∃ response older, t =
    since ++ ⟨u, .called i ⟨.getApplication name, .ok response⟩⟩ :: older
  last : lastRead name (history i since) = none

section Crew
variable {σ ρ ζ : Type} {S : ApplicationService σ ρ ζ} {isSpace : Char → Bool}
  {client : ArgoCdClient} {w₀ w u : σ} {calls : List Call} {t older : List (ServerEntry σ ζ)}
  {name : String} {instanceId : UUID} {i : Nat}

theorem lastRead_entry {response : Response}
    (h : lastRead name (history i t) = some (.ok response)) : ∃ u since older,
      t = since ++ ⟨u, .called i ⟨.getApplication name, .ok response⟩⟩ :: older ∧
      lastRead name (history i since) = none := by
  induction t with
  | nil => cases h
  | cons x t ih =>
      obtain ⟨v, what⟩ := x
      have hold : lastRead name (history i t) = some (.ok response) →
          (∀ since : List (ServerEntry σ ζ), lastRead name (history i since) = none →
            lastRead name (history i (⟨v, what⟩ :: since)) = none) →
          ∃ u since older, (⟨v, what⟩ :: t : List (ServerEntry σ ζ)) =
            since ++ ⟨u, .called i ⟨.getApplication name, .ok response⟩⟩ :: older ∧
            lastRead name (history i since) = none := by
        intro hlast hquiet
        obtain ⟨u, since, older, rfl, hnone⟩ := ih hlast
        exact ⟨u, ⟨v, what⟩ :: since, older, rfl, hquiet since hnone⟩
      cases what with
      | changed e =>
          rw [history_changed] at h
          exact hold h fun since hnone => by rw [history_changed]; exact hnone
      | called j event =>
          by_cases hj : j = i
          · subst hj
            obtain ⟨o, result⟩ := event
            rw [history_called_self, lastRead, List.findSome?_cons] at h
            cases hread : o.read? name result with
            | none =>
                simp only [hread] at h
                refine hold h fun since hnone => ?_
                rw [history_called_self, lastRead, List.findSome?_cons]
                simp only [hread]
                exact hnone
            | some answer =>
                simp only [hread, Option.some.injEq] at h
                subst h
                cases o with
                | getApplication other =>
                    simp only [Request.read?, Option.ite_none_right_eq_some, Option.some.injEq]
                      at hread
                    obtain ⟨rfl, rfl⟩ := hread
                    exact ⟨v, [], t, rfl, rfl⟩
                | _ => cases hread
          · rw [history_called_ne _ hj] at h
            exact hold h fun since hnone => by rw [history_called_ne _ hj]; exact hnone

theorem newest_entry {event : RequestEvent} {run : List RequestEvent}
    (newest : history i t = event :: run) :
    ∃ v rest, (⟨v, .called i event⟩ : ServerEntry σ ζ) :: rest <:+ t := by
  have hmem : event ∈ history i t := by
    rw [newest]
    exact List.mem_cons_self ..
  obtain ⟨v, hv⟩ := mem_history.mp hmem
  obtain ⟨later, rest, rfl⟩ := List.append_of_mem hv
  exact ⟨v, rest, List.suffix_append _ _⟩

theorem ownAt_of_seen {response : Response}
    (absent : response.statusCode = 404 → S.application u name = none)
    (present : isSuccess response = true → ∀ application, response.body = some application →
      S.application u name = some application)
    (seen : response.statusCode = 404 ∨ OwnedIdle instanceId response) :
    S.OwnAt u name instanceId := by
  intro application hfound
  rcases seen with hnone | ⟨hsuccess, body, hbody, -, howner, -⟩
  · rw [absent hnone] at hfound
    cases hfound
  · obtain rfl := Option.some.inj ((present hsuccess body hbody).symm.trans hfound)
    exact howner

theorem Request.changes?_eq_some {β : Type} {o : Request β} {call : Call} {h : List RequestEvent}
    (allowed : (conduct client call).guard h o) (changes : o.changes? = some name) :
    name = call.name client ∧ ∃ response, lastRead name h = some (.ok response) ∧
      (response.statusCode = 404 ∨ OwnedIdle call.instanceId response) := by
  obtain ⟨hsend, -⟩ := allowed
  cases o with
  | getApplication other => cases changes
  | createApplication payload => cases changes
  | updateApplication other payload | deleteApplication other =>
      cases changes
      obtain ⟨rfl, response, hlast, hidle⟩ := hsend
      exact ⟨rfl, response, hlast, .inr hidle⟩
  | syncApplication other =>
      cases changes
      obtain ⟨rfl, hlast⟩ := hsend
      exact ⟨rfl, hlast⟩

section Since
variable [S.Lawful]

/-- Nobody but others takes an Application from its instance. -/
theorem own_since (h : Crew (S.machine isSpace client) (conduct client) w₀ calls w t)
    (apart : NamesApart client calls) {call : Call} (mem : call ∈ calls)
    {result : Except ArgoCdError Response} (since : List (ServerEntry σ ζ))
    (split : t = since ++
      ⟨u, .called i ⟨.getApplication (call.name client), result⟩⟩ :: older)
    (untaken : ∀ x ∈ since, ¬S.Taken (call.name client) call.instanceId x)
    (seen : S.OwnAt u (call.name client) call.instanceId) :
    S.OwnAt w (call.name client) call.instanceId := by
  induction h generalizing since with
  | start => simp at split
  | called j o r before body allowed ih =>
      have same := fun hname => apart _ (List.mem_of_getElem? body) call mem hname
      cases since with
      | nil =>
          obtain ⟨hentry, -⟩ := List.cons.inj split
          obtain rfl := congrArg Entry.before hentry
          exact seen.perform allowed same
      | cons x since =>
          obtain ⟨rfl, hrest⟩ := List.cons.inj split
          have hown := ih since hrest fun x hx => untaken x (List.mem_cons_of_mem _ hx)
          exact hown.perform allowed same
  | changed e before ih =>
      cases since with
      | nil => cases (List.cons.inj split).1
      | cons x since =>
          obtain ⟨rfl, hrest⟩ := List.cons.inj split
          have hown := ih since hrest fun x hx => untaken x (List.mem_cons_of_mem _ hx)
          exact hown.react fun htakes => untaken _ (List.mem_cons_self ..) ⟨e, rfl, htakes⟩

theorem last_look (h : Crew (S.machine isSpace client) (conduct client) w₀ calls w t)
    {response : Response} (last : lastRead name (history i t) = some (.ok response)) :
    ∃ u since, LastLook name i u since t ∧
      (response.statusCode = 404 → S.application u name = none) ∧
      (isSuccess response = true → ∀ application, response.body = some application →
        S.application u name = some application) := by
  obtain ⟨u, since, older, rfl, hlast⟩ := lastRead_entry last
  obtain ⟨-, r, hanswer⟩ := h.issued (List.suffix_append _ _)
  exact ⟨u, since, ⟨⟨response, older, rfl⟩, hlast⟩, Lawful.absent name r u response hanswer.symm,
    fun success application => Lawful.found name r u response application hanswer.symm success⟩

/-- A mutation meets what the client saw last, unless others have moved it. -/
theorem own_when_sent (h : Crew (S.machine isSpace client) (conduct client) w₀ calls w t)
    (apart : NamesApart client calls) {call : Call} (mem : call ∈ calls) {response : Response}
    (last : lastRead (call.name client) (history i t) = some (.ok response))
    (seen : response.statusCode = 404 ∨ OwnedIdle call.instanceId response) :
    ∃ u since, LastLook (call.name client) i u since t ∧
      S.OwnAt u (call.name client) call.instanceId ∧
      ((∃ x ∈ since, S.Taken (call.name client) call.instanceId x) ∨
        S.OwnAt w (call.name client) call.instanceId) := by
  obtain ⟨u, since, hlook, habsent, hpresent⟩ := last_look h last
  have hseen := ownAt_of_seen habsent hpresent seen
  refine ⟨u, since, hlook, hseen, ?_⟩
  by_cases taken : ∃ x ∈ since, S.Taken (call.name client) call.instanceId x
  · exact .inl taken
  · obtain ⟨answer, older, hsplit⟩ := hlook.looked
    exact .inr (own_since h apart mem since hsplit
      (fun x hx htaken => taken ⟨x, hx, htaken⟩) hseen)

end Since
end Crew

/-- What the calls of a run did to the Applications of the server. -/
structure SharedSafely {σ ρ ζ : Type} (S : ApplicationService σ ρ ζ) (isSpace : Char → Bool)
    (client : ArgoCdClient) (w₀ : σ) (calls : List Call) (w : σ) (t : List (ServerEntry σ ζ)) :
    Prop where
  /-- A change meets the Application of the instance, as it was seen before, unless
  somebody else has taken the name since. -/
  own : ∀ v i event rest call name, ⟨v, .called i event⟩ :: rest <:+ t → calls[i]? = some call →
    event.op.changes? = some name → name = call.name client ∧
      ∃ u since, LastLook name i u since rest ∧ S.OwnAt u name call.instanceId ∧
        ((∃ x ∈ since, S.Taken name call.instanceId x) ∨ S.OwnAt v name call.instanceId)
  /-- A creation follows a look that found nothing, and is made out to the instance. -/
  created : ∀ v i payload result rest call,
    ⟨v, .called i ⟨.createApplication payload, result⟩⟩ :: rest <:+ t → calls[i]? = some call →
    nestedString payload ["metadata", "name"] = some (call.name client) ∧
      applicationOwner payload = some (.str (toString call.instanceId)) ∧
      ∃ u since, LastLook (call.name client) i u since rest ∧ S.application u (call.name client) = none
  /-- An update keeps the fields and labels of others as they were at the last look. -/
  preserved : ∀ v i name payload result rest call,
    ⟨v, .called i ⟨.updateApplication name payload, result⟩⟩ :: rest <:+ t →
    calls[i]? = some call → applicationOwner payload = some (.str (toString call.instanceId)) ∧
      ∃ u since existing, LastLook name i u since rest ∧ S.application u name = some existing ∧
        Preserves existing payload
  /-- No call touches an Application that none is about. -/
  untouched : ∀ name, (∀ call ∈ calls, call.name client ≠ name) →
    (∀ x ∈ t, ∀ e, x.what = .changed e → e.name ≠ name) → S.application w name = S.application w₀ name
  /-- A completed reconciliation has synchronized an Application that was there. -/
  synced : ∀ i call members values result, calls[i]? = some call →
    call.asked = .ensure members values → result.status = .completed →
    Completes (ensureApplication isSpace client call.instanceId call.slug call.attachedName members
      values) (history i t).reverse result →
    ∃ v response rest,
      ⟨v, .called i ⟨.syncApplication (call.name client), .ok response⟩⟩ :: rest <:+ t ∧
      ∃ application, S.application v (call.name client) = some application
  /-- A completed deletion has found nothing. -/
  gone : ∀ i call, calls[i]? = some call → call.asked = .delete →
    Completes (deleteApplication isSpace client call.instanceId call.slug call.attachedName)
      (history i t).reverse .completed →
    ∃ v event rest, ⟨v, .called i event⟩ :: rest <:+ t ∧ S.application v (call.name client) = none
  /-- A reported status is that of the instance's Application at the moment of the look. -/
  observed : ∀ i call found, calls[i]? = some call → call.asked = .status →
    Completes (getApplicationStatus isSpace client call.instanceId call.slug call.attachedName)
      (history i t).reverse found →
    ∃ v event rest, ⟨v, .called i event⟩ :: rest <:+ t ∧
      S.OwnAt v (call.name client) call.instanceId ∧
      found = (S.application v (call.name client)).map (applicationStatus (call.name client))

section Shared
variable {σ ρ ζ : Type} {S : ApplicationService σ ρ ζ} [S.Lawful] {isSpace : Char → Bool}
  {client : ArgoCdClient} {w₀ w u : σ} {calls : List Call} {t : List (ServerEntry σ ζ)}
  {name : String} {i : Nat} {call : Call}

theorem untouched_name (h : Crew (S.machine isSpace client) (conduct client) w₀ calls w t)
    (foreign : ∀ call ∈ calls, call.name client ≠ name)
    (quiet : ∀ x ∈ t, ∀ e, x.what = .changed e → e.name ≠ name) :
    S.application w name = S.application w₀ name := by
  induction h with
  | start => rfl
  | called j o r _ body allowed ih =>
      have hother := foreign _ (List.mem_of_getElem? body)
      have hbefore := ih fun x hx => quiet x (List.mem_cons_of_mem _ hx)
      exact (spares_perform allowed name (Ne.symm hother)).trans hbefore
  | changed e _ ih =>
      have hother := quiet _ (List.mem_cons_self ..) e rfl
      have hbefore := ih fun x hx => quiet x (List.mem_cons_of_mem _ hx)
      exact (spares_react e name (Ne.symm hother)).trans hbefore

theorem looked (h : Crew (S.machine isSpace client) (conduct client) w₀ calls w t)
    {found : Option Json} (completed :
      Completes (getOwnedApplication isSpace (call.name client) call.instanceId)
        (history i t).reverse found) :
    ∃ v event rest, (⟨v, .called i event⟩ : ServerEntry σ ζ) :: rest <:+ t ∧
      S.OwnAt v (call.name client) call.instanceId ∧ found = S.application v (call.name client) := by
  have hreads : Obeys (sending (call.name client) call.instanceId)
      (getOwnedApplication isSpace (call.name client) call.instanceId) []
      (fun found h' => JustRead (call.name client) call.instanceId found h') (fun _ _ => True) :=
    getOwnedApplication_reads
  obtain ⟨response, run, hrun, hfound⟩ :=
    (hreads.ends (fun _ _ => trivial) (ends_ok.mpr completed)).1 found rfl
  rw [List.reverse_reverse, List.append_nil] at hrun
  obtain ⟨v, rest, hs⟩ := newest_entry hrun
  obtain ⟨-, r, hanswer⟩ := h.issued hs
  cases found with
  | none =>
      have hnone := Lawful.absent _ r v response hanswer.symm hfound
      refine ⟨v, _, rest, hs, fun application hrow => ?_, hnone.symm⟩
      cases hnone.symm.trans hrow
  | some application =>
      obtain ⟨hsuccess, hbody, -, howner⟩ := hfound
      have hrow := Lawful.found _ r v response application hanswer.symm hsuccess hbody
      refine ⟨v, _, rest, hs, fun application' hrow' => ?_, hrow.symm⟩
      obtain rfl := Option.some.inj (hrow.symm.trans hrow')
      exact howner

theorem Crew.shared (h : Crew (S.machine isSpace client) (conduct client) w₀ calls w t)
    (apart : NamesApart client calls) : SharedSafely S isSpace client w₀ calls w t where
  own := by
    intro v i event rest call name hs hcall changes
    have hrest := h.entry hs
    obtain ⟨⟨b, hb, allowed⟩, -⟩ := h.issued hs
    obtain rfl := Option.some.inj (hb.symm.trans hcall)
    obtain ⟨rfl, response, hlast, hseen⟩ := Request.changes?_eq_some allowed changes
    exact ⟨rfl, own_when_sent hrest apart (List.mem_of_getElem? hcall) hlast hseen⟩
  created := by
    intro v i payload result rest call hs hcall
    obtain ⟨⟨b, hb, hsend, hstamp⟩, -⟩ := h.issued hs
    obtain rfl := Option.some.inj (hb.symm.trans hcall)
    obtain ⟨response, hlast, habsent⟩ := hsend
    obtain ⟨u, since, hlook, hnone, -⟩ := last_look (h.entry hs) hlast
    exact ⟨hstamp.1, hstamp.2, u, since, hlook, hnone habsent⟩
  preserved := by
    intro v i name payload result rest call hs hcall
    obtain ⟨⟨b, hb, hsend, hstamp⟩, -⟩ := h.issued hs
    obtain rfl := Option.some.inj (hb.symm.trans hcall)
    obtain ⟨rfl, response, hlast, hsuccess, -⟩ := hsend
    obtain ⟨howner, response', existing, hlast', hbody, hpreserves⟩ := hstamp
    obtain rfl := Except.ok.inj (Option.some.inj (hlast.symm.trans hlast'))
    obtain ⟨u, since, hlook, -, hpresent⟩ := last_look (h.entry hs) hlast
    exact ⟨howner, u, since, existing, hlook, hpresent hsuccess existing hbody, hpreserves⟩
  untouched := fun name foreign quiet => untouched_name h foreign quiet
  synced := by
    intro i call members values result hcall hasked hstatus completed
    obtain ⟨-, hsynced⟩ := ensureApplication_synchronized isSpace client call.instanceId call.slug
      call.attachedName members values completed
    obtain ⟨response, run, hrun, hsuccess⟩ := hsynced hstatus
    rw [List.reverse_reverse] at hrun
    obtain ⟨v, rest, hs⟩ := newest_entry hrun
    obtain ⟨-, r, hanswer⟩ := h.issued hs
    exact ⟨v, response, rest, hs, Lawful.synced _ r v response hanswer.symm hsuccess⟩
  gone := by
    intro i call hcall hasked completed
    have hend := (deleteApplication_sends (h := []) client call.slug call.attachedName).ends
      (fun _ _ => trivial) (ends_ok.mpr completed)
    obtain ⟨response, run, habsent, hrun⟩ := hend.1 .completed rfl rfl
    rw [List.reverse_reverse, List.append_nil] at hrun
    rcases hrun with hrun | hrun
    · obtain ⟨v, rest, hs⟩ := newest_entry hrun
      obtain ⟨-, r, hanswer⟩ := h.issued hs
      exact ⟨v, _, rest, hs, Lawful.absent _ r v response hanswer.symm habsent⟩
    · obtain ⟨v, rest, hs⟩ := newest_entry hrun
      obtain ⟨-, r, hanswer⟩ := h.issued hs
      exact ⟨v, _, rest, hs, Lawful.missing _ r v response hanswer.symm habsent⟩
  observed := by
    intro i call found hcall hasked completed
    obtain ⟨first, rest, a, hrun, hfirst, hlast⟩ := completes_bind.mp completed
    obtain ⟨rfl, rfl⟩ := completes_pure.mp hlast
    rw [List.append_nil] at hrun
    obtain ⟨v, event, rest, hs, hown, rfl⟩ := looked h (hrun ▸ hfirst)
    exact ⟨v, event, rest, hs, hown, rfl⟩

end Shared

/-- On a shared server, in every interleaving. -/
theorem applications_are_shared {σ ρ ζ : Type} (S : ApplicationService σ ρ ζ) [S.Lawful]
    (isSpace : Char → Bool) (client : ArgoCdClient) (w₀ : σ)
    (ls : List (Label ρ (Elsewhere ζ) Call)) (apart : NamesApart client (spawned ls)) :
    SharedSafely S isSpace client w₀ (spawned ls) ((S.machine isSpace client).run w₀ ls).world
      ((S.machine isSpace client).run w₀ ls).trace :=
  Crew.shared (Machine.run_crew (fun _ _ _ _ => trivial) (Call.body_keeps isSpace client) ls) apart

def sharingClient : ArgoCdClient where
  project := "coder"
  applicationPrefix := "app"
  deployment := some {
    region := "eu", repositoryUrl := "https://git.example/charts.git", repositoryPath := "coder"
    targetRevision := "main", destinationName := "cluster", additionalValues := none
    cyberark := ⟨"id", "cert", "key", "safe"⟩, defaultAdmins := [] }

def sharingValues (slug : String) : HelmValues where
  slug := slug
  baseDomain := "example"
  managedDatabaseName := "db"
  databaseHost := "host"
  databaseName := "coder"
  databaseSchema := "coder_" ++ slug
  kubeconfig := none

/-- Two reconciliations of instance 1 race each other, and one of instance 2 goes on
between them. Somebody else takes the name of instance 2 before it is synchronized. -/
def sharing : List (Label Reply (Elsewhere (Option Json)) Call) :=
  let ensure := fun id slug => Label.spawn ⟨id, slug, none, .ensure [] (sharingValues slug)⟩
  let act := fun thread => Label.act thread (Reply.accepted none)
  [ensure 1 "one", ensure 1 "one", ensure 2 "two", act 0, act 1, act 2, act 0, act 1, act 2, act 1,
    act 1, act 1, act 1, act 0, act 0, act 2,
    .change (.other "app-two" (some (.obj [("metadata", .obj [])]))), act 2]

def sharedRun : System Request ArgoCdError Applications (Elsewhere (Option Json)) :=
  (Applications.server.machine (fun _ => false) sharingClient).run .empty sharing

theorem sharing_is_safe :
    (sharedRun.trace.length = 15 ∧ NamesApart sharingClient (spawned sharing)) ∧
    SharedSafely Applications.server (fun _ => false) sharingClient .empty (spawned sharing)
      sharedRun.world sharedRun.trace :=
  have apart : NamesApart sharingClient (spawned sharing) := by
    unfold NamesApart
    decide +kernel
  ⟨⟨by decide +kernel, apart⟩, applications_are_shared Applications.server _ _ _ sharing apart⟩

end ArgoCd
end CoderManager
