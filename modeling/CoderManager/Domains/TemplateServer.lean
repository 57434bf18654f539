import CoderManager.Domains.TemplateService
import CoderManager.Lib.Table

/-!
# A deployment in memory

A small server that behaves as Coder does, in tables with identifiers given out
in order. It shows that the laws can be met and lets concrete histories run.
-/
namespace CoderManager
open Programs Tables

/-- What the server does with a request: it finds imports that still run in a
given state, fails before or after the effect, or is not asked for templates. -/
inductive ServerChoice where
  | serve (status : ImportStatus)
  | fail (error : WorkerError)
  | lost (error : WorkerError)
  | reply (reply : Reply)

def ServerChoice.database : ServerChoice → Reply
  | .reply r => r
  | _ => .done

structure CoderRemote where
  templates : Table UUID RemoteTemplate
  versions : Table UUID RemoteVersion
  nextId : UUID
  templatesBelow : ∀ id t, templates.lookup id = some t → id < nextId ∧ t.activeVersionId < nextId
  versionsBelow : ∀ id v, versions.lookup id = some v → id < nextId

namespace CoderRemote
variable (r : CoderRemote)

def empty : CoderRemote where
  templates := .empty
  versions := .empty
  nextId := 0
  templatesBelow := fun _ _ h => nomatch h
  versionsBelow := fun _ _ h => nomatch h

def spend : CoderRemote where
  templates := r.templates
  versions := r.versions
  nextId := r.nextId + 1
  templatesBelow := by
    intro id t ht
    have h := r.templatesBelow id t ht
    exact ⟨Nat.lt_succ_of_lt h.1, Nat.lt_succ_of_lt h.2⟩
  versionsBelow := fun id v hv => Nat.lt_succ_of_lt (r.versionsBelow id v hv)

def addVersion (v : RemoteVersion) : CoderRemote where
  templates := r.templates
  versions := r.versions.insert r.nextId v
  nextId := r.nextId + 1
  templatesBelow := r.spend.templatesBelow
  versionsBelow := by
    intro id v' hv
    rcases Table.lookup_insert_cases hv with ⟨rfl, -⟩ | ⟨-, hv⟩
    · exact Nat.lt_succ_self _
    · exact Nat.lt_succ_of_lt (r.versionsBelow id v' hv)

def setVersion (id : UUID) (f : RemoteVersion → RemoteVersion) : CoderRemote where
  templates := r.templates
  versions := r.versions.modify id f
  nextId := r.nextId
  templatesBelow := r.templatesBelow
  versionsBelow := by
    intro id' v hv
    rcases Table.lookup_modify_cases hv with ⟨rfl, v₀, hv₀, -⟩ | ⟨-, hv⟩
    · exact r.versionsBelow _ v₀ hv₀
    · exact r.versionsBelow id' v hv

def addTemplate (t : RemoteTemplate) (old : t.activeVersionId < r.nextId) : CoderRemote where
  templates := r.templates.insert r.nextId t
  versions := r.versions.modify t.activeVersionId fun v => { v with templateId := some r.nextId }
  nextId := r.nextId + 1
  templatesBelow := by
    intro id t' ht
    rcases Table.lookup_insert_cases ht with ⟨rfl, rfl⟩ | ⟨-, ht⟩
    · exact ⟨Nat.lt_succ_self _, Nat.lt_succ_of_lt old⟩
    · exact r.spend.templatesBelow id t' ht
  versionsBelow := (r.setVersion t.activeVersionId fun v =>
    { v with templateId := some r.nextId }).spend.versionsBelow

def activate (id versionId : UUID) (old : versionId < r.nextId) : CoderRemote where
  templates := r.templates.modify id fun t => { t with activeVersionId := versionId }
  versions := r.versions
  nextId := r.nextId
  templatesBelow := by
    intro id' t ht
    rcases Table.lookup_modify_cases ht with ⟨rfl, t₀, ht₀, rfl⟩ | ⟨-, ht⟩
    · exact ⟨(r.templatesBelow _ t₀ ht₀).1, old⟩
    · exact r.templatesBelow id' t ht
  versionsBelow := r.versionsBelow

def erase (id : UUID) : CoderRemote where
  templates := r.templates.erase id
  versions := r.versions.deleteWhere fun _ v => v.templateId == some id
  nextId := r.nextId
  templatesBelow := fun id' t ht => r.templatesBelow id' t (Table.lookup_erase_some.mp ht).2
  versionsBelow := fun id' v hv => r.versionsBelow id' v (Table.lookup_deleteWhere_some.mp hv).1

def templateNamed (name : String) : Option UUID :=
  (r.templates.find? fun _ t => t.name == name).map Prod.fst

def versionNamed (name versionName : String) : Option UUID :=
  (r.versions.find? fun _ v => v.name == versionName && (r.templateNamed name).isSome &&
    v.templateId == r.templateNamed name).map Prod.fst

def observe (status : ImportStatus) (v : RemoteVersion) : RemoteVersion :=
  if v.status.finished then v else { v with status }

def effect (status : ImportStatus) : {β : Type} → Call β →
    Option (Except WorkerError β × CoderRemote)
  | _, .template _ id => some (.ok ((r.templates.lookup id).map (RemoteTemplate.view id)), r)
  | _, .templateByName _ _ name =>
      some (.ok ((r.templateNamed name).bind fun id =>
        (r.templates.lookup id).map (RemoteTemplate.view id)), r)
  | _, .templateVersionByName _ _ name versionName =>
      some (.ok ((r.versionNamed name versionName).bind fun id =>
        (r.versions.lookup id).map (RemoteVersion.view id)), r)
  | _, .templateVersionForRecovery _ id =>
      some (.ok ((r.versions.lookup id).map (RemoteVersion.view id)), r)
  | _, .templateVersion _ id =>
      some (match r.versions.lookup id with
        | none => (.error (.coderRequestError "Coder template version is missing"), r)
        | some v => (.ok ((observe status v).view id), r.setVersion id (observe status)))
  | _, .uploadTemplateArchive _ _ => some (.ok r.nextId, r.spend)
  | _, .createTemplateVersion _ _ _ versionName templateId _ =>
      some (.ok (RemoteVersion.view r.nextId ⟨versionName, templateId, .pending, false⟩),
        r.addVersion ⟨versionName, templateId, .pending, false⟩)
  | _, .createTemplate _ _ name _ versionId =>
      some (if (r.templateNamed name).isSome then
          (.error (.coderRequestError "Coder template name is taken"), r)
        else if old : versionId < r.nextId then
          (.ok ⟨r.nextId, some versionId⟩, r.addTemplate ⟨name, versionId⟩ old)
        else (.error (.coderRequestError "Coder template version is missing"), r))
  | _, .activateTemplateVersion _ id versionId =>
      some (if (r.templates.lookup id).isSome then
          if old : versionId < r.nextId then (.ok (), r.activate id versionId old)
          else (.error (.coderRequestError "Coder template version is missing"), r)
        else (.error (.coderRequestError "Coder template is missing"), r))
  | _, .unarchiveTemplateVersion _ id =>
      some (.ok (), r.setVersion id fun v => { v with archived := false })
  | _, .deleteTemplate _ id => some (.ok (), r.erase id)
  | _, _ => none

def request (choice : ServerChoice) {β : Type} (c : Call β) : Except WorkerError β × CoderRemote :=
  match choice with
  | .serve status => (r.effect status c).getD (.error .httpError, r)
  | .fail error => (.error error, r)
  | .lost error => (.error error, ((r.effect .pending c).map Prod.snd).getD r)
  | .reply reply =>
      match r.effect .pending c with
      | none => (c.answer reply, r)
      | some answered => answered

def service : TemplateService CoderRemote where
  template := fun r id => r.templates.lookup id
  version := fun r id => r.versions.lookup id
  templateNamed := templateNamed
  versionNamed := versionNamed
  issued := fun r id => id < r.nextId
  answers := fun _ c r answer r' => ∃ choice, r.request choice c = (answer, r')

variable {r} {r' : CoderRemote} {β : Type} {c : Call β} {answer : Except WorkerError β}

/-- A request fails, is not about templates, or has its effect, with the answer or without. -/
theorem request_cases {choice : ServerChoice} (sent : r.request choice c = (answer, r')) :
    (r' = r ∧ ∃ e, answer = .error e) ∨ (r' = r ∧ ∀ status, r.effect status c = none) ∨
      ∃ status a, r.effect status c = some (a, r') ∧ (answer = a ∨ ∃ e, answer = .error e) := by
  have free : ∀ status status', r.effect status c = none → r.effect status' c = none := by
    intro status status' h
    cases c <;> first | exact h | cases h
  cases choice with
  | fail e =>
      cases sent
      exact .inl ⟨rfl, e, rfl⟩
  | serve status =>
      simp only [request] at sent
      cases heffect : r.effect status c with
      | none =>
          rw [heffect] at sent
          cases sent
          exact .inl ⟨rfl, _, rfl⟩
      | some answered =>
          rw [heffect] at sent
          cases sent
          exact .inr (.inr ⟨status, _, heffect, .inl rfl⟩)
  | lost e =>
      simp only [request] at sent
      cases heffect : r.effect .pending c with
      | none =>
          rw [heffect] at sent
          cases sent
          exact .inl ⟨rfl, e, rfl⟩
      | some answered =>
          rw [heffect] at sent
          cases sent
          exact .inr (.inr ⟨.pending, answered.1, heffect, .inr ⟨e, rfl⟩⟩)
  | reply reply =>
      simp only [request] at sent
      cases heffect : r.effect .pending c with
      | none =>
          rw [heffect] at sent
          cases sent
          exact .inr (.inl ⟨rfl, fun status => free _ status heffect⟩)
      | some answered =>
          rw [heffect] at sent
          cases sent
          exact .inr (.inr ⟨.pending, _, heffect, .inl rfl⟩)

theorem keeps_refl (r : CoderRemote) : service.Keeps r r :=
  ⟨fun _ h => h, fun _ => rfl, fun _ => rfl, fun _ => rfl, fun _ _ => rfl⟩

theorem isSome_setVersion (id : UUID) (f : RemoteVersion → RemoteVersion) (id' : UUID) :
    ((r.versions.modify id f).lookup id').isSome = (r.versions.lookup id').isSome := by
  rw [Table.lookup_modify]
  split
  · exact Option.isSome_map
  · rfl

theorem keeps_setVersion (id : UUID) (f : RemoteVersion → RemoteVersion)
    (same : ∀ v, (f v).name = v.name ∧ (f v).templateId = v.templateId) :
    service.Keeps r (r.setVersion id f) where
  issued := fun _ h => h
  templates := fun _ => rfl
  versions := isSome_setVersion id f
  templateNamed := fun _ => rfl
  versionNamed := by
    intro name versionName
    refine Table.find?_modify_key fun _ v => ?_
    rw [(same v).1, (same v).2]

theorem keeps_effect {status : ImportStatus} {a : Except WorkerError β}
    (quiet : c.keepsTemplates = true) (effect : r.effect status c = some (a, r')) :
    service.Keeps r r' := by
  cases c with
  | template | templateByName | templateVersionByName | templateVersionForRecovery =>
      cases effect
      exact keeps_refl r
  | templateVersion url id =>
      simp only [CoderRemote.effect, Option.some.injEq] at effect
      split at effect
      · cases effect
        exact keeps_refl r
      · cases effect
        refine keeps_setVersion id _ fun v => ?_
        unfold observe
        split <;> exact ⟨rfl, rfl⟩
  | uploadTemplateArchive url content =>
      cases effect
      exact ⟨fun _ h => Nat.lt_succ_of_lt h, fun _ => rfl, fun _ => rfl, fun _ => rfl,
        fun _ _ => rfl⟩
  | unarchiveTemplateVersion url id =>
      cases effect
      exact keeps_setVersion id _ fun _ => ⟨rfl, rfl⟩
  | createTemplateVersion | createTemplate | activateTemplateVersion | deleteTemplate => cases quiet
  | _ => cases effect

theorem finished_setVersion {id id' : UUID} {v : RemoteVersion} {f : RemoteVersion → RemoteVersion}
    (row : r.versions.lookup id = some v) (same : (f v).status = v.status) :
    ∃ v', (r.versions.modify id' f).lookup id = some v' ∧ v'.status = v.status := by
  rw [Table.lookup_modify]
  split
  · exact ⟨f v, by rw [row]; rfl, same⟩
  · exact ⟨v, row, rfl⟩

theorem finished_effect {status : ImportStatus} {a : Except WorkerError β} {id : UUID}
    {v : RemoteVersion} (kept : c.deletesTemplate = false)
    (effect : r.effect status c = some (a, r')) (row : r.versions.lookup id = some v)
    (ended : v.status.finished = true) :
    ∃ v', r'.versions.lookup id = some v' ∧ v'.status = v.status := by
  cases c with
  | template | templateByName | templateVersionByName | templateVersionForRecovery
  | uploadTemplateArchive =>
      cases effect
      exact ⟨v, row, rfl⟩
  | templateVersion url id' =>
      simp only [CoderRemote.effect, Option.some.injEq] at effect
      split at effect
      · cases effect
        exact ⟨v, row, rfl⟩
      · cases effect
        refine finished_setVersion row ?_
        rw [observe, if_pos ended]
  | unarchiveTemplateVersion url id' =>
      cases effect
      exact finished_setVersion row rfl
  | createTemplateVersion =>
      cases effect
      refine ⟨v, ?_, rfl⟩
      exact (Table.lookup_insert_ne _ _ (Nat.ne_of_lt (r.versionsBelow id v row))).trans row
  | createTemplate =>
      simp only [CoderRemote.effect, Option.some.injEq] at effect
      split at effect
      · cases effect
        exact ⟨v, row, rfl⟩
      · split at effect
        · cases effect
          exact finished_setVersion row rfl
        · cases effect
          exact ⟨v, row, rfl⟩
  | activateTemplateVersion =>
      simp only [CoderRemote.effect, Option.some.injEq] at effect
      split at effect
      · split at effect <;>
        · cases effect
          exact ⟨v, row, rfl⟩
      · cases effect
        exact ⟨v, row, rfl⟩
  | deleteTemplate => cases kept
  | _ => cases effect

theorem templateNamed_some {name : String} {id : UUID} (h : r.templateNamed name = some id) :
    ∃ t, r.templates.lookup id = some t ∧ t.name = name := by
  obtain ⟨row, hrow, rfl⟩ := Option.map_eq_some_iff.mp h
  obtain ⟨ht, hname⟩ := Table.find?_eq_some hrow
  exact ⟨row.2, ht, by simpa using hname⟩

theorem templateNamed_none {name : String} (h : r.templateNamed name = none) (id : UUID)
    (t : RemoteTemplate) (ht : r.templates.lookup id = some t) : t.name ≠ name := by
  have habsent := Table.find?_eq_none.mp (Option.map_eq_none_iff.mp h) id t ht
  simpa using habsent

theorem versionNamed_some {name versionName : String} {id : UUID}
    (h : r.versionNamed name versionName = some id) :
    ∃ v, r.versions.lookup id = some v ∧ v.name = versionName ∧
      (r.templateNamed name).isSome = true ∧ v.templateId = r.templateNamed name := by
  obtain ⟨row, hrow, rfl⟩ := Option.map_eq_some_iff.mp h
  obtain ⟨hv, hmatch⟩ := Table.find?_eq_some hrow
  simp only [Bool.and_eq_true, beq_iff_eq] at hmatch
  exact ⟨row.2, hv, hmatch.1.1, hmatch.1.2, hmatch.2⟩

theorem answered {choice : ServerChoice} {b : β} {f : ImportStatus → Except WorkerError β × CoderRemote}
    (sent : r.request choice c = (.ok b, r')) (effect : ∀ status, r.effect status c = some (f status)) :
    ∃ status, f status = (.ok b, r') := by
  rcases request_cases sent with ⟨-, e, he⟩ | ⟨-, hnone⟩ | ⟨status, a, ha, hanswer⟩
  · cases he
  · cases (effect .pending).symm.trans (hnone .pending)
  · refine ⟨status, (Option.some.inj ((effect status).symm.trans ha)).trans ?_⟩
    rcases hanswer with rfl | ⟨e, he⟩
    · rfl
    · cases he

instance lawful (url : InstanceUrl) : service.Lawful url where
  templateNamed := fun _ _ _ => templateNamed_some
  unnamed := fun _ _ => templateNamed_none
  versionNamed := fun _ _ _ _ => versionNamed_some
  issuedTemplate := fun r id t => r.templatesBelow id t
  issuedVersion := fun r id v => r.versionsBelow id v
  keeps := by
    rintro r r' β c answer quiet ⟨choice, sent⟩
    rcases request_cases sent with ⟨rfl, -⟩ | ⟨rfl, -⟩ | ⟨status, a, heffect, -⟩
    · exact keeps_refl _
    · exact keeps_refl _
    · exact keeps_effect quiet heffect
  finished := by
    rintro r r' β c answer id v kept ⟨choice, sent⟩ row ended
    rcases request_cases sent with ⟨rfl, -⟩ | ⟨rfl, -⟩ | ⟨status, a, heffect, -⟩
    · exact ⟨v, row, rfl⟩
    · exact ⟨v, row, rfl⟩
    · exact finished_effect kept heffect row ended
  readTemplate := by
    rintro r r' id found ⟨choice, sent⟩
    obtain ⟨status, h⟩ := answered sent fun _ => rfl
    cases h
    rfl
  readTemplateByName := by
    rintro r r' organizationId name found ⟨choice, sent⟩
    obtain ⟨status, h⟩ := answered sent fun _ => rfl
    cases h
    rfl
  readVersionByName := by
    rintro r r' organizationId name versionName found ⟨choice, sent⟩
    obtain ⟨status, h⟩ := answered sent fun _ => rfl
    cases h
    rfl
  readVersionForRecovery := by
    rintro r r' id found ⟨choice, sent⟩
    obtain ⟨status, h⟩ := answered sent fun _ => rfl
    cases h
    rfl
  readVersion := by
    rintro r r' id found ⟨choice, sent⟩
    obtain ⟨status, h⟩ := answered sent fun _ => rfl
    split at h
    · cases h
    · rename_i v hv
      cases h
      change ((r.versions.modify id (observe status)).lookup id).map _ = _
      rw [Table.lookup_modify_self, hv]
      rfl
  createVersion := by
    rintro r r' organizationId fileId name templateId values answer ⟨choice, sent⟩
    rcases request_cases sent with ⟨rfl, e, he⟩ | ⟨-, hnone⟩ | ⟨status, a, heffect, hanswer⟩
    · exact .inl ⟨keeps_refl _, e, he⟩
    · cases hnone .pending
    · cases heffect
      refine .inr ⟨r.nextId, ⟨name, templateId, .pending, false⟩, ⟨Nat.lt_irrefl _,
        fun _ h => Nat.lt_succ_of_lt h, fun _ => rfl, Table.lookup_insert_self _ _ _, ?_⟩, ?_⟩
      · intro id' hne
        exact congrArg _ (Table.lookup_insert_ne _ _ hne)
      · rintro made rfl
        rcases hanswer with h | ⟨e, h⟩
        · exact Except.ok.inj h
        · cases h
  createTemplate := by
    rintro r r' organizationId name displayName versionId answer ⟨choice, sent⟩
    rcases request_cases sent with ⟨rfl, e, he⟩ | ⟨-, hnone⟩ | ⟨status, a, heffect, hanswer⟩
    · exact .inl ⟨keeps_refl _, e, he⟩
    · cases hnone .pending
    · have refused : ∀ {e}, (Except.error e, r) = (a, r') →
          service.Keeps r r' ∧ ∃ e, answer = .error e := by
        intro e h
        cases h
        exact ⟨keeps_refl _, hanswer.elim (fun h => ⟨_, h⟩) id⟩
      simp only [effect, Option.some.injEq] at heffect
      split at heffect
      · exact .inl (refused heffect)
      · split at heffect
        · rename_i old
          cases heffect
          refine .inr ⟨r.nextId, ⟨Nat.lt_irrefl _, fun _ h => Nat.lt_succ_of_lt h,
            Table.lookup_insert_self _ _ _, fun id' hne => Table.lookup_insert_ne _ _ hne,
            isSome_setVersion versionId _⟩, ?_⟩
          rintro made rfl
          rcases hanswer with h | ⟨e, h⟩
          · rw [Except.ok.inj h]
          · cases h
        · exact .inl (refused heffect)
  activateVersion := by
    rintro r r' id versionId answer ⟨choice, sent⟩
    rcases request_cases sent with ⟨rfl, e, he⟩ | ⟨-, hnone⟩ | ⟨status, a, heffect, hanswer⟩
    · exact .inl ⟨keeps_refl _, e, he⟩
    · cases hnone .pending
    · have refused : ∀ {e}, (Except.error e, r) = (a, r') →
          service.Keeps r r' ∧ ∃ e, answer = .error e := by
        intro e h
        cases h
        exact ⟨keeps_refl _, hanswer.elim (fun h => ⟨_, h⟩) (fun h => h)⟩
      simp only [effect, Option.some.injEq] at heffect
      split at heffect
      · rename_i here
        split at heffect
        · obtain ⟨t, ht⟩ := Option.isSome_iff_exists.mp here
          cases heffect
          refine .inr ⟨fun _ h => h, ⟨t, ht, ?_⟩, fun id' hne => Table.lookup_modify_ne _ _ hne,
            fun _ => rfl⟩
          exact (Table.lookup_modify_self _ _ _).trans (congrArg _ ht)
        · exact .inl (refused heffect)
      · exact .inl (refused heffect)
  deleteTemplate := by
    rintro r r' id answer ⟨choice, sent⟩
    rcases request_cases sent with ⟨rfl, -⟩ | ⟨-, hnone⟩ | ⟨status, a, heffect, -⟩
    · exact ⟨fun _ h => h, fun _ _ h => h, fun _ h => h⟩
    · cases hnone .pending
    · cases heffect
      refine ⟨fun _ h => h, fun id' t ht => (Table.lookup_erase_some.mp ht).2, fun id' hsome => ?_⟩
      obtain ⟨v, hv⟩ := Option.isSome_iff_exists.mp hsome
      have hkept : (r.versions.deleteWhere fun _ v => v.templateId == some id).lookup id' = some v := hv
      exact Option.isSome_iff_exists.mpr ⟨v, (Table.lookup_deleteWhere_some.mp hkept).1⟩

end CoderRemote
end CoderManager
