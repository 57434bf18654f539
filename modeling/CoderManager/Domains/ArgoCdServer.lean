import CoderManager.Domains.ApplicationService
import CoderManager.Lib.Table

/-!
# An Argo CD server

A server that takes labels and spec as it is given them and answers `404` of nothing
that exists. A reply says what it decides: whether it carries a request out, what it
stores beside the fields it was given, and whether its answer arrives.
-/
namespace CoderManager
namespace ArgoCd
open Programs Tables

/-- The Applications on the server, by name. -/
abbrev Applications := Table String Json

/-- What the server decides about a request. `stored` is what it keeps of its own, or
nothing of its own. -/
inductive Reply where
  | accepted (stored : Option Json)
  | unanswered (stored : Option Json)
  | refused (response : Response)
  | lost

namespace Applications

/-- The server takes labels and spec as given and adds fields of its own. -/
def admitted (given : Json) (stored : Option Json) : Json :=
  match stored with
  | none => given
  | some own =>
      let metadata := Json.set (objectFields (own.get "metadata")) "labels"
        (.obj (applicationLabels given))
      .obj (Json.set (Json.set (objectFields (some own)) "metadata" (.obj metadata)) "spec"
        ((given.get "spec").getD .null))

/-- A refusal is no success, and says `404` of nothing that exists. -/
def refusal (response : Response) : Response :=
  if isSuccess response || response.statusCode == 404 then ⟨500, none⟩ else response

def carry (s : Applications) (reply : Reply)
    (change : Option Json → Except Response Applications) :
    Except ArgoCdError Response × Applications :=
  match reply with
  | .lost => (.error .httpError, s)
  | .refused response => (.ok (refusal response), s)
  | .accepted stored =>
      match change stored with
      | .ok s' => (.ok ⟨200, none⟩, s')
      | .error response => (.ok response, s)
  | .unanswered stored =>
      match change stored with
      | .ok s' => (.error .httpError, s')
      | .error _ => (.error .httpError, s)

def find (s : Applications) (name : String) : Response :=
  match s.lookup name with
  | some application => ⟨200, some application⟩
  | none => ⟨404, none⟩

def replace (s : Applications) (name : String) (application : Json → Option Json → Json)
    (stored : Option Json) : Except Response Applications :=
  match s.lookup name with
  | some existing => .ok (s.insert name (application existing stored))
  | none => .error ⟨404, none⟩

def advance (s : Applications) (name : String) (stored : Option Json) : Applications :=
  match s.lookup name, stored with
  | none, _ => s
  | some _, none => s.erase name
  | some existing, some own => s.insert name (admitted existing (some own))

def perform : {β : Type} → Request β → Reply → Applications → Except ArgoCdError β × Applications
  | _, .getApplication name, reply, s =>
      match reply with
      | .accepted _ => (.ok (s.find name), s)
      | .refused response => (.ok (refusal response), s)
      | .unanswered _ | .lost => (.error .httpError, s)
  | _, .createApplication payload, reply, s => s.carry reply fun stored =>
      match nestedString payload ["metadata", "name"] with
      | none => .error ⟨400, none⟩
      | some name =>
          if (s.lookup name).isSome then .error ⟨409, none⟩
          else .ok (s.insert name (admitted payload stored))
  | _, .updateApplication name payload, reply, s =>
      s.carry reply (s.replace name fun _ => admitted payload)
  | _, .deleteApplication name, reply, s => s.carry reply fun stored =>
      if (s.lookup name).isSome then .ok (s.advance name stored) else .error ⟨404, none⟩
  | _, .syncApplication name, reply, s => s.carry reply (s.replace name admitted)

/-- Somebody else's Application under a name, or none. -/
def overwrite (s : Applications) (name : String) : Option Json → Applications
  | some application => s.insert name application
  | none => s.erase name

def server : ApplicationService Applications Reply (Option Json) where
  application := Table.lookup
  perform := perform
  reconcile := fun name stored s => s.advance name stored
  intervene := fun name application s => s.overwrite name application

section Server
variable {s : Applications} {reply : Reply} {name : String}

theorem labels_admitted (given : Json) (stored : Option Json) :
    applicationLabels (admitted given stored) = applicationLabels given := by
  cases stored with
  | none => rfl
  | some own =>
      rw [admitted, applicationLabels]
      simp [Json.get, Json.lookup_set, objectFields]

theorem refusal_answers (response : Response) :
    (refusal response).statusCode ≠ 404 ∧ isSuccess (refusal response) = false := by
  unfold refusal
  split
  · exact ⟨show ¬(500 = 404) by decide, rfl⟩
  · rename_i hplain
    simp only [Bool.or_eq_true, beq_iff_eq, not_or, Bool.not_eq_true] at hplain
    exact ⟨hplain.2, hplain.1⟩

theorem carry_ends {change : Option Json → Except Response Applications}
    (holds : Applications → Prop) (unchanged : holds s)
    (changed : ∀ stored s', change stored = .ok s' → holds s') :
    holds (s.carry reply change).2 := by
  cases reply with
  | lost | refused => exact unchanged
  | accepted stored | unanswered stored =>
      simp only [carry]
      cases h : change stored with
      | ok s' => exact changed stored s' h
      | error response => exact unchanged

theorem carry_answers {change : Option Json → Except Response Applications} {response : Response}
    (answered : (s.carry reply change).1 = .ok response) :
    (∃ refusing, response = refusal refusing) ∨
      ∃ stored, change stored = .error response ∨
        (response = ⟨200, none⟩ ∧ ∃ s', change stored = .ok s') := by
  cases reply with
  | lost => cases answered
  | refused refusing => exact .inl ⟨refusing, (Except.ok.inj answered).symm⟩
  | accepted stored =>
      simp only [carry] at answered
      cases h : change stored with
      | ok s' =>
          rw [h] at answered
          exact .inr ⟨stored, .inr ⟨(Except.ok.inj answered).symm, s', h⟩⟩
      | error response' =>
          rw [h] at answered
          exact .inr ⟨stored, .inl (h.trans (congrArg _ (Except.ok.inj answered)))⟩
  | unanswered stored =>
      simp only [carry] at answered
      cases h : change stored <;> rw [h] at answered <;> cases answered

theorem perform_get {response : Response}
    (answered : (perform (.getApplication name) reply s).1 = .ok response) :
    (response.statusCode = 404 → s.lookup name = none) ∧
      (isSuccess response = true → s.lookup name = response.body ∧ response.body ≠ none) := by
  cases reply with
  | unanswered | lost => cases answered
  | accepted stored =>
      obtain rfl := Except.ok.inj answered
      unfold find
      split
      · rename_i application hfound
        exact ⟨fun h => absurd h (show ¬(200 = 404) by decide), fun _ => ⟨hfound, by simp⟩⟩
      · rename_i hfound
        exact ⟨fun _ => hfound, fun h => absurd h (by decide)⟩
  | refused refusing =>
      obtain rfl := Except.ok.inj answered
      obtain ⟨hcode, hsuccess⟩ := refusal_answers refusing
      exact ⟨fun h => absurd h hcode, fun h => absurd (hsuccess.symm.trans h) (by decide)⟩

theorem advances_self : server.Advances s s name where
  spares := fun _ _ => rfl
  labels := fun application found => ⟨application, found, rfl⟩

theorem puts_self {payload : Json} : server.Puts s s name payload where
  spares := fun _ _ => rfl
  labels := fun _ found => .inl found

theorem spares_insert (application : Json) : server.Spares s (Table.insert s name application) name :=
  fun _ other => Table.lookup_insert_ne _ _ other

theorem spares_erase : server.Spares s (Table.erase s name) name := by
  intro other hother
  change (Table.erase s name).lookup other = s.lookup other
  rw [Table.lookup_erase, if_neg hother]

theorem advances_insert {existing : Json} (row : s.lookup name = some existing)
    (stored : Option Json) :
    server.Advances s (Table.insert s name (admitted existing stored)) name where
  spares := spares_insert _
  labels := by
    intro application found
    obtain rfl := Option.some.inj ((Table.lookup_insert_self s name _).symm.trans found)
    exact ⟨existing, row, labels_admitted existing stored⟩

theorem advances_erase : server.Advances s (Table.erase s name) name where
  spares := spares_erase
  labels := fun _ found => absurd rfl (Table.lookup_erase_some.mp found).1

theorem puts_insert {payload : Json} (stored : Option Json) :
    server.Puts s (Table.insert s name (admitted payload stored)) name payload where
  spares := spares_insert _
  labels := by
    intro application found
    obtain rfl := Option.some.inj ((Table.lookup_insert_self s name _).symm.trans found)
    refine .inr fun label value given => ?_
    rw [labels_admitted]
    exact given

theorem advances_advance (stored : Option Json) :
    server.Advances s (s.advance name stored) name := by
  unfold advance
  split
  · exact advances_self
  · exact advances_erase
  · exact advances_insert (by assumption) _

theorem replace_ok {application : Json → Option Json → Json} {stored : Option Json}
    {s' : Applications} (h : s.replace name application stored = .ok s') :
    ∃ existing, s.lookup name = some existing ∧
      s' = Table.insert s name (application existing stored) := by
  unfold replace at h
  split at h
  · exact ⟨_, by assumption, (Except.ok.inj h).symm⟩
  · cases h

theorem perform_missing {response : Response}
    (answered : (perform (.deleteApplication name) reply s).1 = .ok response)
    (missing : response.statusCode = 404) : s.lookup name = none := by
  cases hrow : s.lookup name with
  | none => rfl
  | some existing =>
      rcases carry_answers answered with ⟨refusing, rfl⟩ | ⟨stored, hchange | ⟨rfl, -⟩⟩
      · exact absurd missing (refusal_answers refusing).1
      · simp [hrow] at hchange
      · exact absurd missing (show ¬(200 = 404) by decide)

theorem perform_synced {response : Response}
    (answered : (perform (.syncApplication name) reply s).1 = .ok response)
    (success : isSuccess response = true) : ∃ application, s.lookup name = some application := by
  cases hrow : s.lookup name with
  | some application => exact ⟨application, rfl⟩
  | none =>
      rcases carry_answers answered with ⟨refusing, rfl⟩ | ⟨stored, hchange | ⟨-, s', hchange⟩⟩
      · exact absurd ((refusal_answers refusing).2.symm.trans success) (by decide)
      · simp only [replace, hrow, Except.error.injEq] at hchange
        subst hchange
        exact absurd success (by decide)
      · simp [replace, hrow] at hchange

/-- The server is one the client can rely on. -/
instance : server.Lawful where
  reads := by
    intro name decision s other
    cases decision <;> rfl
  absent := fun name decision s response answered => (perform_get answered).1
  found := by
    intro name decision s response application answered success body
    exact ((perform_get answered).2 success).1.trans body
  creates := by
    intro payload name decision s hname
    change server.Puts s (perform (.createApplication payload) decision s).2 name payload
    simp only [perform, hname]
    apply carry_ends (fun s' => server.Puts s s' name payload) puts_self
    intro stored s' hchange
    split at hchange <;> cases hchange
    exact puts_insert stored
  updates := by
    intro name payload decision s
    apply carry_ends (fun s' => server.Puts s s' name payload) puts_self
    intro stored s' hchange
    obtain ⟨existing, -, rfl⟩ := replace_ok hchange
    exact puts_insert stored
  deletes := by
    intro name decision s
    apply carry_ends (fun s' => server.Advances s s' name) advances_self
    intro stored s' hchange
    split at hchange <;> cases hchange
    exact advances_advance stored
  syncs := by
    intro name decision s
    apply carry_ends (fun s' => server.Advances s s' name) advances_self
    intro stored s' hchange
    obtain ⟨existing, row, rfl⟩ := replace_ok hchange
    exact advances_insert row stored
  missing := fun name decision s response => perform_missing
  synced := fun name decision s response => perform_synced
  reconciles := fun name stored s => advances_advance stored
  intervenes := by
    intro name application s
    cases application with
    | none => exact spares_erase
    | some application => exact spares_insert application

end Server
end Applications
end ArgoCd
end CoderManager
