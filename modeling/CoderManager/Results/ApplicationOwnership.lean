import CoderManager.Domains.ArgoCd

/-!
# Ownership of Argo CD Applications

Responses follow one another as the environment likes. A mutation is sent only on
the strength of the last read of the Application: an owned one without an active
operation, or its absence.
-/
namespace CoderManager
namespace ArgoCd
open Programs

abbrev RequestEvent := Event Request ArgoCdError

def Request.read? (name : String) : {β : Type} → Request β → Except ArgoCdError β →
    Option (Except ArgoCdError Response)
  | _, .getApplication name', result => if name' = name then some result else none
  | _, _, _ => none

def lastRead (name : String) (h : List RequestEvent) : Option (Except ArgoCdError Response) :=
  h.findSome? fun e => e.op.read? name e.result

/-- The Application exists, is owned by the instance and runs no operation. -/
def OwnedIdle (instanceId : UUID) (response : Response) : Prop :=
  isSuccess response = true ∧ ∃ application, response.body = some application ∧
    application.isObject = true ∧
    applicationOwner application = some (.str (toString instanceId)) ∧
    nestedString application ["status", "operationState", "phase"] ≠ some "Running" ∧
    nestedString application ["status", "operationState", "phase"] ≠ some "Terminating"

/-- What the last read must have been for a request to be sent. -/
def MaySend (name : String) (instanceId : UUID) (h : List RequestEvent) :
    {β : Type} → Request β → Prop
  | _, .getApplication name' => name' = name
  | _, .createApplication _ =>
      ∃ response, lastRead name h = some (.ok response) ∧ response.statusCode = 404
  | _, .updateApplication name' _ | _, .deleteApplication name' =>
      name' = name ∧ ∃ response, lastRead name h = some (.ok response) ∧ OwnedIdle instanceId response
  | _, .syncApplication name' =>
      name' = name ∧ ∃ response, lastRead name h = some (.ok response) ∧
        (response.statusCode = 404 ∨ OwnedIdle instanceId response)

def sending (name : String) (instanceId : UUID) : Protocol Request ArgoCdError where
  answers := fun _ _ => True
  guard := fun h o => MaySend name instanceId h o

section Reads
variable {isSpace : Char → Bool} {name : String} {instanceId : UUID} {h : List RequestEvent}

theorem liftExcept_obeys {α : Type} {P : Protocol Request ArgoCdError} (x : Except ArgoCdError α)
    {ok : α → List RequestEvent → Prop} (kept : ∀ a, x = .ok a → ok a h) :
    Obeys P (liftExcept x) h ok (fun _ _ => True) := by
  cases x with
  | ok a => exact kept a rfl
  | error e => exact trivial

theorem isSuccess_of_raise {response : Response} {method path : String} {u : Unit}
    (h : raiseForResponse isSpace response method path = .ok u) : isSuccess response = true := by
  unfold raiseForResponse at h
  split at h
  · assumption
  · cases h

def Owned (instanceId : UUID) (response : Response) (application : Json) : Prop :=
  isSuccess response = true ∧ response.body = some application ∧ application.isObject = true ∧
    applicationOwner application = some (.str (toString instanceId))

def Reads (instanceId : UUID) (response : Response) : Option Json → Prop
  | none => response.statusCode = 404
  | some application => Owned instanceId response application

def JustRead (name : String) (instanceId : UUID) (found : Option Json) (h : List RequestEvent) : Prop :=
  ∃ response rest, h = ⟨.getApplication name, .ok response⟩ :: rest ∧ Reads instanceId response found

theorem JustRead.lastRead {found : Option Json} (read : JustRead name instanceId found h) :
    ∃ response, ArgoCd.lastRead name h = some (.ok response) ∧ Reads instanceId response found := by
  obtain ⟨response, rest, rfl, hresponse⟩ := read
  refine ⟨response, ?_, hresponse⟩
  simp [ArgoCd.lastRead, Request.read?]

theorem getOwnedApplication_reads :
    Obeys (sending name instanceId) (getOwnedApplication isSpace name instanceId) h
      (fun found h' => JustRead name instanceId found h') (fun _ _ => True) := by
  have hget : Obeys (sending name instanceId) (getApplication isSpace name) h
      (fun found h' => ∃ response, h' = ⟨.getApplication name, .ok response⟩ :: h ∧
        match found with
        | none => response.statusCode = 404
        | some application => isSuccess response = true ∧ response.body = some application ∧
            application.isObject = true) (fun _ _ => True) := by
    unfold getApplication
    refine obeys_bind.mpr (obeys_perform.mpr ⟨rfl, fun response _ => ?_, fun _ _ => trivial⟩)
    split
    · rename_i habsent
      exact ⟨response, rfl, habsent⟩
    · refine obeys_bind.mpr (liftExcept_obeys _ fun u hraise => ?_)
      refine obeys_bind.mpr (liftExcept_obeys _ fun application hbody => ?_)
      refine ⟨response, rfl, isSuccess_of_raise hraise, ?_⟩
      unfold jsonObject at hbody
      split at hbody
      · cases hbody
      · rename_i payload hpayload
        split at hbody
        · obtain rfl := Except.ok.inj hbody
          exact ⟨hpayload, by assumption⟩
        · cases hbody
  unfold getOwnedApplication
  refine obeys_bind.mpr (hget.mono ?_ (fun _ _ _ => trivial))
  rintro found h' ⟨response, rfl, hfound⟩
  cases found with
  | none => exact ⟨response, h, rfl, hfound⟩
  | some application =>
      obtain ⟨hsuccess, hbody, hobject⟩ := hfound
      dsimp only
      split
      · rename_i owner howner
        split
        · rename_i hsame
          exact ⟨response, h, rfl, hsuccess, hbody, hobject, by rw [howner, hsame]⟩
        · exact trivial
      · exact trivial

theorem Owned.idle {response : Response} {application : Json}
    (owned : Owned instanceId response application)
    (idle : ¬applicationOperationIsActive application = true) : OwnedIdle instanceId response := by
  obtain ⟨hsuccess, hbody, hobject, howner⟩ := owned
  refine ⟨hsuccess, application, hbody, hobject, howner, ?_, ?_⟩ <;>
  · intro hphase
    simp [applicationOperationIsActive, hphase] at idle

theorem JustRead.idle {application : Json} (read : JustRead name instanceId (some application) h)
    (idle : ¬applicationOperationIsActive application = true) :
    ∃ response, ArgoCd.lastRead name h = some (.ok response) ∧ OwnedIdle instanceId response := by
  obtain ⟨response, hlast, howned⟩ := read.lastRead
  exact ⟨response, hlast, howned.idle idle⟩

end Reads

section Mutations
variable {isSpace : Char → Bool} {name : String} {instanceId : UUID} {h : List RequestEvent}

/-- A reconciliation is complete only once its synchronization was accepted. -/
def Synchronized (name : String) (result : ArgoCdReconcileResult) (h : List RequestEvent) : Prop :=
  result.applicationName = name ∧ (result.status = .completed →
    ∃ response rest, h = ⟨.syncApplication name, .ok response⟩ :: rest ∧ isSuccess response = true)

theorem syncApplication_sends :
    Obeys (sending name instanceId) (syncApplication isSpace name instanceId) h
      (Synchronized name) (fun _ _ => True) := by
  unfold syncApplication
  refine obeys_bind.mpr (getOwnedApplication_reads.mono (fun current h' read => ?_)
    (fun _ _ _ => trivial))
  split
  · exact ⟨rfl, fun hstatus => by cases hstatus⟩
  · rename_i hidle
    have hlast : ∃ response, lastRead name h' = some (.ok response) ∧
        (response.statusCode = 404 ∨ OwnedIdle instanceId response) := by
      cases current with
      | none =>
          obtain ⟨response, hlast, habsent⟩ := read.lastRead
          exact ⟨response, hlast, .inl habsent⟩
      | some application =>
          obtain ⟨response, hlast, howned⟩ := read.idle hidle
          exact ⟨response, hlast, .inr howned⟩
    refine obeys_bind.mpr (obeys_perform.mpr ⟨⟨rfl, hlast⟩, fun response _ => ?_, fun _ _ => trivial⟩)
    refine obeys_bind.mpr (liftExcept_obeys _ fun u hraise => ?_)
    exact ⟨rfl, fun _ => ⟨response, h', rfl, isSuccess_of_raise hraise⟩⟩

theorem updateApplication_sends {desired existing : Json}
    (read : JustRead name instanceId (some existing) h)
    (idle : ¬applicationOperationIsActive existing = true) :
    Obeys (sending name instanceId)
      (updateApplication isSpace name instanceId desired existing) h (Synchronized name)
      (fun _ _ => True) := by
  unfold updateApplication
  refine obeys_bind.mpr (liftExcept_obeys _ fun payload _ => ?_)
  refine obeys_bind.mpr (obeys_perform.mpr
    ⟨⟨rfl, read.idle idle⟩, fun response _ => ?_, fun _ _ => trivial⟩)
  refine obeys_bind.mpr (liftExcept_obeys _ fun u _ => ?_)
  exact syncApplication_sends

variable (client : ArgoCdClient) (slug : String) (attachedName : Option String)
  (members : List (String × MemberRole)) (helmValues : HelmValues)

theorem ensureApplication_sends :
    Obeys (sending (applicationName client.applicationPrefix slug attachedName) instanceId)
      (ensureApplication isSpace client instanceId slug attachedName members helmValues) h
      (Synchronized (applicationName client.applicationPrefix slug attachedName))
      (fun _ _ => True) := by
  unfold ensureApplication
  cases client.deployment with
  | none => exact trivial
  | some config =>
      dsimp only
      generalize applicationName client.applicationPrefix slug attachedName = name
      refine obeys_bind.mpr (liftExcept_obeys _ fun desired _ => ?_)
      refine obeys_bind.mpr (getOwnedApplication_reads.mono (fun found h' read => ?_)
        (fun _ _ _ => trivial))
      cases found with
      | some existing =>
          dsimp only
          split
          · exact ⟨rfl, fun hstatus => by cases hstatus⟩
          · rename_i hidle
            exact updateApplication_sends read hidle
      | none =>
          obtain ⟨response, hlast, habsent⟩ := read.lastRead
          refine obeys_bind.mpr (obeys_perform.mpr
            ⟨⟨response, hlast, habsent⟩, fun created _ => ?_, fun _ _ => trivial⟩)
          split
          · refine obeys_bind.mpr (getOwnedApplication_reads.mono (fun found h'' read => ?_)
              (fun _ _ _ => trivial))
            cases found with
            | none =>
                refine obeys_bind.mpr (liftExcept_obeys _ fun u _ => ?_)
                exact syncApplication_sends
            | some existing =>
                dsimp only
                split
                · exact ⟨rfl, fun hstatus => by cases hstatus⟩
                · rename_i hidle
                  exact updateApplication_sends read hidle
          · refine obeys_bind.mpr (liftExcept_obeys _ fun u _ => ?_)
            exact syncApplication_sends

/-- A deletion is complete only when its last request found nothing. -/
def Gone (name : String) (status : ArgoCdMutationStatus) (h : List RequestEvent) : Prop :=
  status = .completed → ∃ response rest, response.statusCode = 404 ∧
    (h = ⟨.getApplication name, .ok response⟩ :: rest ∨
      h = ⟨.deleteApplication name, .ok response⟩ :: rest)

theorem deleteApplication_sends :
    Obeys (sending (applicationName client.applicationPrefix slug attachedName) instanceId)
      (deleteApplication isSpace client instanceId slug attachedName) h
      (Gone (applicationName client.applicationPrefix slug attachedName)) (fun _ _ => True) := by
  unfold deleteApplication
  dsimp only
  generalize applicationName client.applicationPrefix slug attachedName = name
  refine obeys_bind.mpr (getOwnedApplication_reads.mono (fun found h' read => ?_)
    (fun _ _ _ => trivial))
  cases found with
  | none =>
      obtain ⟨response, rest, rfl, habsent⟩ := read
      exact fun _ => ⟨response, rest, habsent, .inl rfl⟩
  | some existing =>
      dsimp only
      split
      · exact fun hstatus => by cases hstatus
      · rename_i hblocked
        have hidle : ¬applicationOperationIsActive existing = true := fun hactive =>
          hblocked (by rw [hactive, Bool.true_or])
        refine obeys_bind.mpr (obeys_perform.mpr
          ⟨⟨rfl, read.idle hidle⟩, fun response _ => ?_, fun _ _ => trivial⟩)
        split
        · rename_i habsent
          exact fun _ => ⟨response, h', habsent, .inr rfl⟩
        · refine obeys_bind.mpr (liftExcept_obeys _ fun u _ => ?_)
          refine obeys_bind.mpr (getOwnedApplication_reads.mono (fun remaining h'' read => ?_)
            (fun _ _ _ => trivial))
          cases remaining with
          | none =>
              obtain ⟨response, rest, rfl, habsent⟩ := read
              exact fun _ => ⟨response, rest, habsent, .inl rfl⟩
          | some application => exact fun hstatus => by cases hstatus

end Mutations

section Decisions
variable {isSpace : Char → Bool} {name : String} {instanceId : UUID}

theorem liftExcept_decides {α : Type} (x : Except ArgoCdError α) : Decides (liftExcept x) := by
  cases x with
  | ok a => exact .pure a
  | error e => exact .throw e

theorem getOwnedApplication_decides : Decides (getOwnedApplication isSpace name instanceId) := by
  have hget : Decides (getApplication isSpace name) :=
    .bind (.perform _) fun _ => .ite (.pure _) (.bind (liftExcept_decides _) fun _ =>
      .bind (liftExcept_decides _) fun _ => .pure _)
  refine .bind hget fun found => ?_
  cases found with
  | none => exact .pure _
  | some application =>
      dsimp only
      split
      · exact .ite (.pure _) (.throw _)
      · exact .throw _

theorem syncApplication_decides : Decides (syncApplication isSpace name instanceId) :=
  .bind getOwnedApplication_decides fun _ => .ite (.pure _)
    (.bind (.perform _) fun _ => .bind (liftExcept_decides _) fun _ => .pure _)

theorem updateApplication_decides (desired existing : Json) :
    Decides (updateApplication isSpace name instanceId desired existing) :=
  .bind (liftExcept_decides _) fun _ => .bind (.perform _) fun _ =>
    .bind (liftExcept_decides _) fun _ => syncApplication_decides

variable (client : ArgoCdClient) (slug : String) (attachedName : Option String)
  (members : List (String × MemberRole)) (helmValues : HelmValues)

theorem ensureApplication_decides :
    Decides (ensureApplication isSpace client instanceId slug attachedName members helmValues) := by
  unfold ensureApplication
  cases client.deployment with
  | none => exact .throw _
  | some config =>
      refine .bind (liftExcept_decides _) fun desired => .bind getOwnedApplication_decides fun found => ?_
      cases found with
      | some existing => exact .ite (.pure _) (updateApplication_decides desired existing)
      | none =>
          refine .bind (.perform _) fun created => .ite ?_
            (.bind (liftExcept_decides _) fun _ => syncApplication_decides)
          refine .bind getOwnedApplication_decides fun found => ?_
          cases found with
          | none => exact .bind (liftExcept_decides _) fun _ => syncApplication_decides
          | some existing => exact .ite (.pure _) (updateApplication_decides desired existing)

theorem deleteApplication_decides :
    Decides (deleteApplication isSpace client instanceId slug attachedName) := by
  refine .bind getOwnedApplication_decides fun found => ?_
  cases found with
  | none => exact .pure _
  | some existing =>
      exact .ite (.pure _) (.bind (.perform _) fun _ => .ite (.pure _)
        (.bind (liftExcept_decides _) fun _ => .bind getOwnedApplication_decides fun _ => .pure _))

end Decisions

section Client
variable (isSpace : Char → Bool) (client : ArgoCdClient) (instanceId : UUID) (slug : String)
  (attachedName : Option String) (members : List (String × MemberRole)) (helmValues : HelmValues)

theorem ensureApplication_synchronized {run : List RequestEvent} {result : ArgoCdReconcileResult}
    (completed : Completes
      (ensureApplication isSpace client instanceId slug attachedName members helmValues) run result) :
    Synchronized (applicationName client.applicationPrefix slug attachedName) result run.reverse := by
  have hend := (ensureApplication_sends (h := []) client slug attachedName members helmValues).ends
    (fun _ _ => trivial) (ends_ok.mpr completed)
  have hresult := hend.1 result rfl
  rwa [List.append_nil] at hresult

theorem ensureApplication_keeps :
    Keeps (sending (applicationName client.applicationPrefix slug attachedName) instanceId)
      (ensureApplication isSpace client instanceId slug attachedName members helmValues) [] :=
  (ensureApplication_sends client slug attachedName members helmValues).mono
    (fun _ _ _ => trivial) (fun _ _ _ => trivial)

theorem deleteApplication_keeps :
    Keeps (sending (applicationName client.applicationPrefix slug attachedName) instanceId)
      (deleteApplication isSpace client instanceId slug attachedName) [] :=
  (deleteApplication_sends client slug attachedName).mono
    (fun _ _ _ => trivial) (fun _ _ _ => trivial)

/-- Whatever Argo CD answers, a mutation is sent only on the strength of the last
read of the Application, and completion is claimed only for what was answered. -/
theorem applications_are_respected :
    (∀ run before e after,
      Begins (ensureApplication isSpace client instanceId slug attachedName members helmValues) run ∨
        Begins (deleteApplication isSpace client instanceId slug attachedName) run →
      run = before ++ e :: after →
      MaySend (applicationName client.applicationPrefix slug attachedName) instanceId before.reverse
        e.op) ∧
    (∀ run out,
      Ends (ensureApplication isSpace client instanceId slug attachedName members helmValues) run out →
      (∃ e, out = some (.error e)) ∨ (∃ result, out = some (.ok result) ∧ result.status = .deferred) ∨
        ∃ result before response, out = some (.ok result) ∧ result.status = .completed ∧
          run = before ++ [⟨.syncApplication
            (applicationName client.applicationPrefix slug attachedName), .ok response⟩] ∧
          isSuccess response = true) ∧
    ∀ run out, Ends (deleteApplication isSpace client instanceId slug attachedName) run out →
      (∃ e, out = some (.error e)) ∨ out = some (.ok .deferred) ∨
        ∃ before response, out = some (.ok .completed) ∧ response.statusCode = 404 ∧
          (run = before ++ [⟨.getApplication
              (applicationName client.applicationPrefix slug attachedName), .ok response⟩] ∨
            run = before ++ [⟨.deleteApplication
              (applicationName client.applicationPrefix slug attachedName), .ok response⟩]) := by
  refine ⟨?_, ?_, ?_⟩
  · intro run before e after started split
    have hsend : MaySend (applicationName client.applicationPrefix slug attachedName) instanceId
        (before.reverse ++ []) e.op := by
      rcases started with started | started
      · exact (ensureApplication_keeps isSpace client instanceId slug attachedName members
          helmValues).begins (fun _ _ => trivial) started split
      · exact (deleteApplication_keeps isSpace client instanceId slug attachedName).begins
          (fun _ _ => trivial) started split
    rwa [List.append_nil] at hsend
  · intro run out ended
    match out, ended with
    | none, ended =>
        exact absurd ended (ensureApplication_decides client slug attachedName members helmValues run)
    | some (.error e), _ => exact .inl ⟨e, rfl⟩
    | some (.ok result), ended =>
        cases hstatus : result.status with
        | deferred => exact .inr (.inl ⟨result, rfl, hstatus⟩)
        | completed =>
            obtain ⟨-, hcompleted⟩ := ensureApplication_synchronized isSpace client instanceId slug
              attachedName members helmValues (ends_ok.mp ended)
            obtain ⟨response, rest, hrun, hsuccess⟩ := hcompleted hstatus
            refine .inr (.inr ⟨result, rest.reverse, response, rfl, hstatus, ?_, hsuccess⟩)
            have hreverse := congrArg List.reverse hrun
            simpa using hreverse
  · intro run out ended
    match out, ended with
    | none, ended => exact absurd ended (deleteApplication_decides client slug attachedName run)
    | some (.error e), _ => exact .inl ⟨e, rfl⟩
    | some (.ok .deferred), _ => exact .inr (.inl rfl)
    | some (.ok .completed), ended =>
        have hend := (deleteApplication_sends (h := []) client slug attachedName).ends
          (fun _ _ => trivial) ended
        obtain ⟨response, rest, habsent, hrun⟩ := hend.1 .completed rfl rfl
        refine .inr (.inr ⟨rest.reverse, response, rfl, habsent, hrun.imp ?_ ?_⟩) <;>
        · intro hrun
          have hreverse := congrArg List.reverse hrun
          simpa using hreverse

end Client
end ArgoCd
end CoderManager
