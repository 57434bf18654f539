import CoderManager.Domains.ApplicationService
import CoderManager.Results.ApplicationOwnership

/-!
# What the client puts on Argo CD

Payloads are made out to the instance of their call, and an update leaves to an
Application what is not the manager's.
-/
namespace CoderManager
namespace ArgoCd
open Programs

/-- The labels the manager sets, or takes away. -/
def managedLabels : List String :=
  [instanceIdLabel, "region", "domain", "tier", "coder-manager/managed", "environment"]

/-- A payload leaves to an Application what is not the manager's. -/
structure Preserves (existing payload : Json) : Prop where
  labels : ∀ label, label ∉ managedLabels →
    (applicationLabels payload).lookup label = (applicationLabels existing).lookup label
  metadata : ∀ field, field ≠ "labels" → field ≠ "name" →
    (objectFields (payload.get "metadata")).lookup field =
      (objectFields (existing.get "metadata")).lookup field

/-- Payloads carry the name of their Application and the label of their instance. -/
def Stamps (name : String) (instanceId : UUID) (h : List RequestEvent) :
    {β : Type} → Request β → Prop
  | _, .createApplication payload => nestedString payload ["metadata", "name"] = some name ∧
      applicationOwner payload = some (.str (toString instanceId))
  | _, .updateApplication _ payload =>
      applicationOwner payload = some (.str (toString instanceId)) ∧
        ∃ response existing, lastRead name h = some (.ok response) ∧
          response.body = some existing ∧ Preserves existing payload
  | _, _ => True

def stamping (name : String) (instanceId : UUID) : Protocol Request ArgoCdError where
  answers := fun _ _ => True
  guard := fun h o => Stamps name instanceId h o

section Payloads

def desiredMetadata (name : String) (instanceId : UUID) (region : String) : List (String × Json) :=
  [("name", .str name), ("labels", .obj [
    (instanceIdLabel, .str (toString instanceId)), ("region", .str region),
    ("domain", .str "code-station"), ("tier", .str "standard")])]

variable {project name region : String} {config : ArgoCdConfig} {instanceId : UUID}
  {members : List (String × MemberRole)} {helmValues : HelmValues} {existing desired payload : Json}

theorem applicationPayload_metadata
    (h : applicationPayload project config name instanceId members helmValues = .ok desired) :
    desired.get "metadata" = some (.obj (desiredMetadata name instanceId config.region)) := by
  simp only [applicationPayload, bind, Except.bind, pure, Except.pure] at h
  split at h
  · cases h
  · split at h
    · cases h
      rfl
    · split at h <;> cases h
      rfl

def stamped (labels : List (String × Json)) (instanceId : UUID) (region : String) :
    List (String × Json) :=
  let kept := labels.filter fun label =>
    label.1 != "coder-manager/managed" && label.1 != "environment"
  Json.set (Json.set (Json.set (Json.set kept instanceIdLabel (.str (toString instanceId)))
    "region" (.str region)) "domain" (.str "code-station")) "tier" (.str "standard")

theorem applicationUpdatePayload_stamped
    (h : applicationUpdatePayload existing desired = .ok payload)
    (metadata : desired.get "metadata" = some (.obj (desiredMetadata name instanceId region))) :
    applicationOwner payload = some (.str (toString instanceId)) ∧ Preserves existing payload := by
  unfold applicationUpdatePayload at h
  split at h
  case h_2 => cases h
  case h_1 existingMetadata hexisting =>
    have hkept : applicationLabels existing = objectFields (existingMetadata.lookup "labels") := by
      rw [applicationLabels, hexisting]
      rfl
    have hdesired : objectFields (desired.get "metadata") =
        desiredMetadata name instanceId region := by rw [metadata]; rfl
    rw [← hkept, hdesired] at h
    have hmetadata : payload.get "metadata" = some (.obj (Json.set (Json.set existingMetadata
        "labels" (.obj (stamped (applicationLabels existing) instanceId region))) "name"
          (.str name))) := by
      obtain rfl := Except.ok.inj h
      rfl
    have hlabels : applicationLabels payload = stamped (applicationLabels existing) instanceId region := by
      rw [applicationLabels, hmetadata]
      simp [Json.get, Json.lookup_set, objectFields]
    constructor
    · rw [applicationOwner_eq, hlabels]
      simp [stamped, Json.lookup_set, instanceIdLabel]
    · constructor
      · intro label hlabel
        simp only [managedLabels, List.mem_cons, List.not_mem_nil, or_false, not_or] at hlabel
        obtain ⟨hid, hregion, hdomain, htier, hmanaged, henvironment⟩ := hlabel
        have hkept := Dicts.lookup_filter
          (fun label => label != "coder-manager/managed" && label != "environment")
          (applicationLabels existing) label
        simp only [bne_iff_ne, ne_eq, hmanaged, henvironment, not_false_eq_true,
          if_true, Bool.and_eq_true, and_self] at hkept
        rw [hlabels]
        simp only [stamped, Json.lookup_set, hid, hregion, hdomain, htier, if_false]
        exact hkept
      · intro field hlabels hname
        rw [hmetadata, hexisting]
        simp [objectFields, Json.lookup_set, hlabels, hname]

end Payloads
section Stamping
variable {isSpace : Char → Bool} {name : String} {instanceId : UUID} {h : List RequestEvent}

theorem liftExcept_keeps {α : Type} (x : Except ArgoCdError α) :
    Keeps (stamping name instanceId) (liftExcept x) h := by
  cases x with
  | ok a => exact .pure a
  | error e => exact .throw e

theorem getOwnedApplication_stamps :
    Keeps (stamping name instanceId) (getOwnedApplication isSpace name instanceId) h := by
  unfold getOwnedApplication getApplication
  refine .bind (.bind (.perform trivial) fun response h' _ => ?_) fun found h' _ => ?_
  · exact .ite (fun _ => .pure _) fun _ => .bind (liftExcept_keeps _) fun _ _ _ =>
      .bind (liftExcept_keeps _) fun _ _ _ => .pure _
  · cases found with
    | none => exact .pure _
    | some application =>
        dsimp only
        split
        · exact .ite (fun _ => .pure _) fun _ => .throw _
        · exact .throw _

theorem getOwnedApplication_read : Obeys (stamping name instanceId)
    (getOwnedApplication isSpace name instanceId) h
    (fun found h' => JustRead name instanceId found h') (fun _ _ => True) :=
  getOwnedApplication_stamps.obeys (P := sending name instanceId) getOwnedApplication_reads

theorem syncApplication_stamps :
    Keeps (stamping name instanceId) (syncApplication isSpace name instanceId) h :=
  .bind getOwnedApplication_stamps fun _ _ _ => .ite (fun _ => .pure _) fun _ =>
    .bind (.perform trivial) fun _ _ _ => .bind (liftExcept_keeps _) fun _ _ _ => .pure _

theorem updateApplication_stamps {desired existing : Json} {region : String}
    (metadata : desired.get "metadata" = some (.obj (desiredMetadata name instanceId region)))
    (read : JustRead name instanceId (some existing) h) :
    Keeps (stamping name instanceId)
      (updateApplication isSpace name instanceId desired existing) h := by
  unfold updateApplication
  refine obeys_bind.mpr (liftExcept_obeys _ fun payload hpayload => ?_)
  obtain ⟨howner, hpreserves⟩ := applicationUpdatePayload_stamped hpayload metadata
  obtain ⟨response, hlast, -, hbody, -⟩ := read.lastRead
  refine Keeps.bind (.perform ⟨howner, response, existing, hlast, hbody, hpreserves⟩) ?_
  intro _ _ _
  exact .bind (liftExcept_keeps _) fun _ _ _ => syncApplication_stamps

variable (client : ArgoCdClient) (slug : String) (attachedName : Option String)
  (members : List (String × MemberRole)) (helmValues : HelmValues)

theorem ensureApplication_stamps :
    Keeps (stamping (applicationName client.applicationPrefix slug attachedName) instanceId)
      (ensureApplication isSpace client instanceId slug attachedName members helmValues) h := by
  unfold ensureApplication
  cases client.deployment with
  | none => exact .throw _
  | some config =>
      dsimp only
      generalize applicationName client.applicationPrefix slug attachedName = name
      refine obeys_bind.mpr (liftExcept_obeys _ fun desired hdesired => ?_)
      have hmetadata := applicationPayload_metadata hdesired
      have hname : nestedString desired ["metadata", "name"] = some name := by
        rw [nestedString, List.foldl_cons, Option.bind_some, hmetadata]
        rfl
      have howner : applicationOwner desired = some (.str (toString instanceId)) := by
        rw [applicationOwner, hmetadata]
        rfl
      refine obeys_bind.mpr (getOwnedApplication_read.mono (fun found h' read => ?_)
        (fun _ _ _ => trivial))
      cases found with
      | some existing =>
          exact Keeps.ite (fun _ => .pure _) fun _ => updateApplication_stamps hmetadata read
      | none =>
          refine Keeps.bind (.perform ⟨hname, howner⟩) fun created h'' _ => .ite (fun _ => ?_)
            fun _ => .bind (liftExcept_keeps _) fun _ _ _ => syncApplication_stamps
          refine obeys_bind.mpr (getOwnedApplication_read.mono (fun found h₁ read => ?_)
            (fun _ _ _ => trivial))
          cases found with
          | none => exact Keeps.bind (liftExcept_keeps _) fun _ _ _ => syncApplication_stamps
          | some existing =>
              exact Keeps.ite (fun _ => .pure _) fun _ => updateApplication_stamps hmetadata read

theorem deleteApplication_stamps :
    Keeps (stamping (applicationName client.applicationPrefix slug attachedName) instanceId)
      (deleteApplication isSpace client instanceId slug attachedName) h := by
  refine .bind getOwnedApplication_stamps fun found _ _ => ?_
  cases found with
  | none => exact .pure _
  | some existing =>
      exact .ite (fun _ => .pure _) fun _ => .bind (.perform trivial) fun _ _ _ =>
        .ite (fun _ => .pure _) fun _ => .bind (liftExcept_keeps _) fun _ _ _ =>
          .bind getOwnedApplication_stamps fun _ _ _ => .pure _

end Stamping

/-- What a call may send. -/
def conduct (client : ArgoCdClient) (call : Call) : Protocol Request ArgoCdError :=
  (sending (call.name client) call.instanceId).also fun h o =>
    Stamps (call.name client) call.instanceId h o

theorem Call.body_keeps (isSpace : Char → Bool) (client : ArgoCdClient) (call : Call) :
    Keeps (conduct client call) (call.body isSpace client) [] := by
  obtain ⟨instanceId, slug, attachedName, asked⟩ := call
  cases asked with
  | ensure members helmValues =>
      refine Keeps.bind ?_ fun _ _ _ => .pure _
      exact (ensureApplication_keeps isSpace client instanceId slug attachedName members
        helmValues).also (ensureApplication_stamps client slug attachedName members helmValues)
  | delete =>
      refine Keeps.bind ?_ fun _ _ _ => .pure _
      exact (deleteApplication_keeps isSpace client instanceId slug attachedName).also
        (deleteApplication_stamps client slug attachedName)
  | «exists» | status =>
      refine Keeps.bind (.bind ?_ fun _ _ _ => .pure _) fun _ _ _ => .pure _
      exact Keeps.also (getOwnedApplication_reads.mono (fun _ _ _ => trivial) fun _ _ _ => trivial)
        getOwnedApplication_stamps

end ArgoCd
end CoderManager
