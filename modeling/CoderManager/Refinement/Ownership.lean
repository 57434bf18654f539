import CoderManager.PublicationAttempts
import CoderManager.Refinement.References
import CoderManager.Refinement.Templates

/-!
# Who owns a remote template

A template of the assignment that still exists is the recorded one, or it carries
the name and the recorded version is its active one. A publication therefore
tells it from the templates of others, as long as it does not forget the recorded
version before the template is recorded too.
-/
namespace CoderManager
open Programs Tables

variable {σ : Type}

namespace TemplateService
variable {S : TemplateService σ} {w w' : Setting σ} {β : Type} {r : Except WorkerError β}

theorem Keeps.refl (r : σ) : S.Keeps r r :=
  ⟨fun _ h => h, fun _ => rfl, fun _ => rfl, fun _ => rfl, fun _ _ => rfl⟩

theorem Keeps.trans {r r' r'' : σ} (h : S.Keeps r r') (h' : S.Keeps r' r'') : S.Keeps r r'' where
  issued := fun id hid => h'.issued id (h.issued id hid)
  templates := fun id => (h'.templates id).trans (h.templates id)
  versions := fun id => (h'.versions id).trans (h.versions id)
  templateNamed := fun name => (h'.templateNamed name).trans (h.templateNamed name)
  versionNamed := fun name n => (h'.versionNamed name n).trans (h.versionNamed name n)

theorem Performs.transacted {t : Transaction β} (h : S.Performs w (.transaction t) r w') :
    ∃ reply v, World.perform ⟨w.store⟩ reply (.transaction t) = (r, v) ∧ w'.store = v.store ∧
      w'.remote = w.remote := by
  cases h with
  | transaction performed => exact ⟨_, _, performed, rfl, rfl⟩

theorem Performs.transaction_cases {t : Transaction β} (h : S.Performs w (.transaction t) r w') :
    (∃ e, r = .error e ∧ w' = w) ∨ ∃ token a s, r = .ok a ∧ w.store.transact token t = .ok (a, s) ∧
      w' = { w with store := s } := by
  cases h with
  | transaction performed =>
      rcases World.perform_transaction performed with ⟨e, rfl, rfl⟩ | ⟨token, a, s, rfl, hs, rfl⟩
      · exact .inl ⟨e, rfl, rfl⟩
      · exact .inr ⟨token, a, s, rfl, hs, rfl⟩

theorem Performs.call_cases {c : Call β} (h : S.Performs w (.call c) r w') :
    S.answers c w.remote r w'.remote ∧ w'.store = w.store := by
  cases h with
  | call answered => exact ⟨answered, rfl⟩

theorem Performs.read {q : Query β} (h : S.Performs w (.query q) r w') :
    w' = w ∧ ∀ a, r = .ok a → w.store.answer q = .ok a := by
  cases h with
  | @query _ reply _ v performed =>
      refine ⟨rfl, ?_⟩
      rintro a rfl
      simp only [World.perform] at performed
      split at performed
      · cases performed
      · exact congrArg Prod.fst performed

end TemplateService

namespace PublicationTarget
variable {A : PublicationTarget σ} {sc sc' : Scene σ} {w w' : Setting σ}

theorem created_cons {m : Moment σ} {h : Moments σ} {id : UUID} :
    A.Created (m :: h) id ↔ A.Brings m id ∨ A.Created h id := by
  simp only [Created, List.mem_cons, exists_eq_or_imp]

theorem made_cons {m : Moment σ} {h : Moments σ} {id : UUID} :
    A.Made (m :: h) id ↔ A.Imports m id ∨ A.Made h id := by
  simp only [Made, List.mem_cons, exists_eq_or_imp]

/-- What the attempts keep true, wherever they stop. -/
structure Owned (A : PublicationTarget σ) (sc : Scene σ) : Prop where
  created : ∀ id, A.Created sc.history id → A.Issued sc.world id
  made : ∀ id, A.Made sc.history id → A.Issued sc.world id
  place : ∀ a, A.assignment sc.world = some a → a.instanceId = A.url
  templateId : ∀ d id, A.deployment sc.world = some d → d.coderTemplateId = some id →
    A.Created sc.history id
  versionId : ∀ d id, A.deployment sc.world = some d → d.coderTemplateVersionId = some id →
    A.Made sc.history id
  known : ∀ a, A.assignment sc.world = some a → ∀ id t, A.Created sc.history id →
    A.template sc.world id = some t → ∃ d, A.deployment sc.world = some d ∧
      (d.coderTemplateId = some id ∨
        (t.name = A.name ∧ d.coderTemplateVersionId = some t.activeVersionId))
  one : ∀ id id', A.Created sc.history id → A.Created sc.history id' →
    (A.template sc.world id).isSome = true → (A.template sc.world id').isSome = true → id = id'
  theirs : ∀ id t, ¬A.Created sc.history id → A.template sc.world id = some t →
    ¬A.Made sc.history t.activeVersionId
  touches : A.TouchesOwn sc.history

/-- A move, by another party or by the attempt itself, that neither creates nor
changes a template of the assignment nor what its deployment records. -/
structure Calm (A : PublicationTarget σ) (sc sc' : Scene σ) : Prop where
  created : ∀ id, A.Created sc'.history id ↔ A.Created sc.history id
  made : ∀ id, A.Made sc'.history id ↔ A.Made sc.history id
  touches : A.TouchesOwn sc.history → A.TouchesOwn sc'.history
  issued : ∀ id, A.Issued sc.world id → A.Issued sc'.world id
  ours : ∀ id t, A.Created sc.history id → A.template sc'.world id = some t →
    ∃ t₀, A.template sc.world id = some t₀ ∧
      (A.Records sc.world id ∨ (t.name = t₀.name ∧ t.activeVersionId = t₀.activeVersionId))
  theirs : ∀ id t, ¬A.Created sc.history id → A.template sc'.world id = some t →
    ¬A.Made sc.history t.activeVersionId
  store : A.KeepsRecord sc.world.store sc'.world.store

namespace Calm

/-- Other parties that are considerate are calm. -/
theorem of_beside (ho : A.Owned sc) (h : A.Beside sc w) (hc : A.Considerate sc w) :
    A.Calm sc (sc.at_ w) where
  created := fun _ => Iff.rfl
  made := fun _ => Iff.rfl
  touches := fun h => h
  issued := h.issued
  ours := by
    intro id t hid ht
    cases hbefore : A.template sc.world id with
    | none => exact absurd (ho.created id hid) (h.fresh id t ht hbefore)
    | some t₀ =>
        refine ⟨t₀, rfl, ?_⟩
        by_cases hrec : A.Records sc.world id
        · exact .inl hrec
        · exact .inr (hc.ours id t t₀ hid hrec hbefore ht)
  theirs := hc.theirs
  store := h.store

theorem alive_before (h : A.Calm sc sc') {id : UUID} (own : A.Created sc'.history id)
    (alive : (A.template sc'.world id).isSome = true) :
    A.Created sc.history id ∧ (A.template sc.world id).isSome = true := by
  obtain ⟨t, ht⟩ := Option.isSome_iff_exists.mp alive
  have hown := (h.created id).mp own
  obtain ⟨t₀, ht₀, -⟩ := h.ours id t hown ht
  exact ⟨hown, by simp [ht₀]⟩

theorem owned (h : A.Calm sc sc') (ho : A.Owned sc) : A.Owned sc' where
  created := fun id hid => h.issued id (ho.created id ((h.created id).mp hid))
  made := fun id hid => h.issued id (ho.made id ((h.made id).mp hid))
  place := by
    intro a ha
    obtain ⟨a₀, ha₀, hsame, -⟩ := h.store.kept a ha
    rw [hsame]
    exact ho.place a₀ ha₀
  templateId := by
    intro d id hd hid
    obtain ⟨d₀, hd₀, hsame, -⟩ := h.store.recorded d hd
    exact (h.created id).mpr (ho.templateId d₀ id hd₀ (hsame ▸ hid))
  versionId := by
    intro d id hd hid
    obtain ⟨d₀, hd₀, -, hsame, -⟩ := h.store.recorded d hd
    exact (h.made id).mpr (ho.versionId d₀ id hd₀ (hsame ▸ hid))
  known := by
    intro a ha id t hid ht
    have hown := (h.created id).mp hid
    obtain ⟨a₀, ha₀, -, hrow⟩ := h.store.kept a ha
    obtain ⟨t₀, ht₀, hkept⟩ := h.ours id t hown ht
    obtain ⟨d₀, hd₀, hknown⟩ := ho.known a₀ ha₀ id t₀ hown ht₀
    obtain ⟨d, hd⟩ := Option.isSome_iff_exists.mp (hrow (Option.isSome_iff_exists.mpr ⟨d₀, hd₀⟩))
    obtain ⟨d₁, hd₁, htemplate, hversion, -⟩ := h.store.recorded d hd
    cases hd₀.symm.trans hd₁
    refine ⟨d, hd, ?_⟩
    rw [htemplate, hversion]
    rcases hkept with ⟨d₂, hd₂, hrec⟩ | ⟨hname, hactive⟩
    · cases hd₀.symm.trans hd₂
      exact .inl hrec
    · rw [hname, hactive]
      exact hknown
  one := by
    intro id id' hid hid' halive halive'
    obtain ⟨h₁, h₂⟩ := h.alive_before hid halive
    obtain ⟨h₁', h₂'⟩ := h.alive_before hid' halive'
    exact ho.one id id' h₁ h₁' h₂ h₂'
  theirs := by
    intro id t hid ht hmade
    exact h.theirs id t (fun hc => hid ((h.created id).mpr hc)) ht ((h.made _).mp hmade)
  touches := h.touches ho.touches

end Calm

/-- The deployment records these two identifiers, which the attempts made. -/
structure Window (A : PublicationTarget σ) (templateId versionId : Option UUID) (sc : Scene σ) :
    Prop where
  live : (A.assignment sc.world).isSome = true → (A.deployment sc.world).isSome = true
  recorded : ∀ d, A.deployment sc.world = some d →
    d.coderTemplateId = templateId ∧ d.coderTemplateVersionId = versionId
  created : ∀ id, templateId = some id → A.Created sc.history id
  made : ∀ id, versionId = some id → A.Made sc.history id

def Among (A : PublicationTarget σ) (good : UUID → Prop) (sc : Scene σ) : Prop :=
  ∀ id, A.Created sc.history id → (A.template sc.world id).isSome = true → good id

/-- Every template of the assignment that exists is recognised by the two
identifiers. -/
def Known (A : PublicationTarget σ) (templateId versionId : Option UUID) (sc : Scene σ) : Prop :=
  ∀ id t, A.Created sc.history id → A.template sc.world id = some t →
    templateId = some id ∨ (t.name = A.name ∧ versionId = some t.activeVersionId)

namespace Calm
variable {templateId versionId : Option UUID}

theorem window (h : A.Calm sc sc') (hw : A.Window templateId versionId sc) :
    A.Window templateId versionId sc' where
  live := by
    intro ha
    obtain ⟨a, ha⟩ := Option.isSome_iff_exists.mp ha
    obtain ⟨a₀, ha₀, -, hrow⟩ := h.store.kept a ha
    exact hrow (hw.live (Option.isSome_iff_exists.mpr ⟨a₀, ha₀⟩))
  recorded := by
    intro d hd
    obtain ⟨d₀, hd₀, htemplate, hversion, -⟩ := h.store.recorded d hd
    rw [htemplate, hversion]
    exact hw.recorded d₀ hd₀
  created := fun id hid => (h.created id).mpr (hw.created id hid)
  made := fun id hid => (h.made id).mpr (hw.made id hid)

theorem among (h : A.Calm sc sc') {good : UUID → Prop} (ha : A.Among good sc) :
    A.Among good sc' := by
  intro id hid halive
  obtain ⟨hown, hbefore⟩ := h.alive_before hid halive
  exact ha id hown hbefore

theorem known (h : A.Calm sc sc') (hw : A.Window templateId versionId sc)
    (hk : A.Known templateId versionId sc) : A.Known templateId versionId sc' := by
  intro id t hid ht
  have hown := (h.created id).mp hid
  obtain ⟨t₀, ht₀, ⟨d, hd, hrec⟩ | ⟨hname, hactive⟩⟩ := h.ours id t hown ht
  · exact .inl ((hw.recorded d hd).1 ▸ hrec)
  · rw [hname, hactive]
    exact hk id t₀ hown ht₀

theorem sameTarget (h : A.Calm sc sc') {snapshot : TemplateSourceSnapshot}
    {archive : TemplateArchive} {a : TemplateAssignment} (present : A.assignment sc'.world = some a)
    (hs : A.SameTarget sc snapshot archive) : A.SameTarget sc' snapshot archive := by
  intro id t hid ht hunrecorded
  have hown := (h.created id).mp hid
  obtain ⟨a₀, ha₀, -, hrow⟩ := h.store.kept a present
  obtain ⟨t₀, ht₀, -⟩ := h.ours id t hown ht
  by_cases hrec : A.Records sc.world id
  · obtain ⟨d₀, hd₀, hid₀⟩ := hrec
    obtain ⟨d, hd⟩ := Option.isSome_iff_exists.mp (hrow (Option.isSome_iff_exists.mpr ⟨d₀, hd₀⟩))
    obtain ⟨d₁, hd₁, hsame, -⟩ := h.store.recorded d hd
    cases hd₀.symm.trans hd₁
    exact absurd ⟨d, hd, hsame.trans hid₀⟩ hunrecorded
  · obtain ⟨d₀, hd₀, hcommit, hrevision⟩ := hs id t₀ hown ht₀ hrec
    obtain ⟨d, hd⟩ := Option.isSome_iff_exists.mp (hrow (Option.isSome_iff_exists.mpr ⟨d₀, hd₀⟩))
    obtain ⟨d₁, hd₁, -, -, htarget, hsystem⟩ := h.store.recorded d hd
    cases hd₀.symm.trans hd₁
    exact ⟨d, hd, htarget.trans hcommit, hsystem.trans hrevision⟩

end Calm

theorem KeepsRecord.refl (s : Store) : A.KeepsRecord s s :=
  ⟨fun d hd => ⟨d, hd, rfl, rfl, rfl, rfl⟩, fun a ha => ⟨a, ha, rfl, id⟩⟩

theorem KeepsRecord.of_eq {s s' : Store} (assignments : s'.assignments = s.assignments)
    (deployments : s'.deployments = s.deployments) : A.KeepsRecord s s' := by
  constructor
  · rw [deployments]
    exact (KeepsRecord.refl s).recorded
  · rw [assignments, deployments]
    exact (KeepsRecord.refl s).kept

theorem KeepsRecord.of_lookup {s s' : Store}
    (deployment : s'.deployments.lookup A.assignmentId = s.deployments.lookup A.assignmentId)
    (place : (s'.assignments.lookup A.assignmentId).map (fun a => a.instanceId) =
      (s.assignments.lookup A.assignmentId).map fun a => a.instanceId) : A.KeepsRecord s s' := by
  constructor
  · rw [deployment]
    exact (KeepsRecord.refl s).recorded
  · intro a ha
    rw [ha] at place
    obtain ⟨a₀, ha₀, hsame⟩ := Option.map_eq_some_iff.mp place.symm
    exact ⟨a₀, ha₀, hsame.symm, fun h => by rwa [deployment]⟩

theorem touchesOwn_cons {m : Moment σ} {h : Moments σ} : A.TouchesOwn (m :: h) ↔
    (∀ id, m.touched = some id → A.Created h id) ∧ A.TouchesOwn h := by
  constructor
  · intro ht
    exact ⟨ht m h List.suffix_rfl, fun m' older hs => ht m' older (hs.trans (List.suffix_cons m h))⟩
  · rintro ⟨hm, hh⟩ m' older hs
    rcases List.suffix_cons_iff.mp hs with heq | hs
    · obtain ⟨rfl, rfl⟩ := List.cons.inj heq
      exact hm
    · exact hh m' older hs

/-- Operations that leave alone what belongs to the assignment. -/
def quiet : {β : Type} → Op β → Bool
  | _, .query _ | _, .transaction (.heartbeatExecution _)
  | _, .transaction (.finishDeployment _ _ _ _ _) | _, .transaction (.removeLocalAssignment _ _) => true
  | _, .transaction _ => false
  | _, .call c => c.keepsTemplates

variable {β : Type} {o : Op β} {r : Except WorkerError β} {reply : Reply}

theorem touched_quiet (h : quiet o = true) (w w' : Setting σ) :
    (Moment.mk w ⟨o, r⟩ w').touched = none := by
  cases o with
  | query q => rfl
  | transaction t => cases t <;> first | rfl | cases h
  | call c => cases c <;> first | rfl | cases h

theorem KeepsRecord.erase {s : Store} {jobs : Table UUID JobExecution}
    {workspaces : Table UUID Workspace} (id : UUID) :
    A.KeepsRecord s { s with
      jobs, workspaces
      deployments := s.deployments.erase id
      assignments := s.assignments.erase id } := by
  constructor
  · intro d hd
    exact ⟨d, (Table.lookup_erase_some.mp hd).2, rfl, rfl, rfl, rfl⟩
  · intro a ha
    obtain ⟨hne, ha⟩ := Table.lookup_erase_some.mp ha
    refine ⟨a, ha, rfl, fun hsome => ?_⟩
    obtain ⟨d, hd⟩ := Option.isSome_iff_exists.mp hsome
    exact Option.isSome_iff_exists.mpr ⟨d, Table.lookup_erase_some.mpr ⟨hne, hd⟩⟩

theorem KeepsRecord.modify {s : Store} {f : TemplateDeployment → TemplateDeployment} (id : UUID)
    (same : ∀ d, (f d).coderTemplateId = d.coderTemplateId ∧
      (f d).coderTemplateVersionId = d.coderTemplateVersionId ∧
      (f d).targetCommit = d.targetCommit ∧
      (f d).targetSystemParameterRevision = d.targetSystemParameterRevision) :
    A.KeepsRecord s { s with deployments := s.deployments.modify id f } := by
  constructor
  · intro d hd
    rcases Table.lookup_modify_cases hd with ⟨hid, d₀, hd₀, rfl⟩ | ⟨-, hd⟩
    · exact ⟨d₀, hid ▸ hd₀, same d₀⟩
    · exact ⟨d, hd, rfl, rfl, rfl, rfl⟩
  · intro a ha
    refine ⟨a, ha, rfl, fun hsome => ?_⟩
    rw [Table.lookup_modify]
    split
    · simpa using hsome
    · exact hsome

theorem keepsRecord_committed {s s' : Store} {t : Transaction β} {answer : β}
    (h : quiet (.transaction t) = true) (commit : Committed s t answer s') :
    A.KeepsRecord s s' := by
  cases commit with
  | heartbeatStale | deploymentMissing | removeAssignmentStale => exact .refl _
  | heartbeatExecution => exact .of_eq rfl rfl
  | @finishDeployment _ id _ _ success =>
      refine .modify id fun d => ?_
      cases success <;> exact ⟨rfl, rfl, rfl, rfl⟩
  | removeLocalAssignment => exact .erase _
  | _ => cases h

theorem created_after (remote : A.service.Keeps sc.world.remote w.remote) (id : UUID) :
    A.Created (sc.after o r w).history id ↔ A.Created sc.history id := by
  refine created_cons.trans (or_iff_right ?_)
  rintro ⟨hnone, hsome⟩
  unfold template at hnone hsome
  rw [remote.templates, hnone] at hsome
  cases hsome

theorem made_after (remote : A.service.Keeps sc.world.remote w.remote) (id : UUID) :
    A.Made (sc.after o r w).history id ↔ A.Made sc.history id := by
  refine made_cons.trans (or_iff_right ?_)
  rintro ⟨hnone, hsome⟩
  unfold version at hnone hsome
  rw [remote.versions, hnone] at hsome
  cases hsome

/-- An operation that touches only what attempts created, and after which the
templates and the versions are the same, is calm. -/
theorem Calm.of_keeps (ho : A.Owned sc) (remote : A.service.Keeps sc.world.remote w.remote)
    (store : A.KeepsRecord sc.world.store w.store)
    (touches : ∀ id, (Moment.mk sc.world ⟨o, r⟩ w).touched = some id → A.Created sc.history id) :
    A.Calm sc (sc.after o r w) where
  created := created_after remote
  made := made_after remote
  touches := fun h => touchesOwn_cons.mpr ⟨touches, h⟩
  issued := remote.issued
  ours := fun id t _ ht => ⟨t, (remote.templates id).symm.trans ht, .inr ⟨rfl, rfl⟩⟩
  theirs := fun id t hid ht => ho.theirs id t hid ((remote.templates id).symm.trans ht)
  store := store

theorem Calm.of_moved (ho : A.Owned sc)
    (h : w = sc.world ∨ (A.Beside sc w ∧ A.settled.moves sc w)) : A.Calm sc (sc.at_ w) := by
  rcases h with rfl | ⟨h, hc⟩
  · refine .of_beside ho ⟨fun _ h => h, ?_, .refl _⟩ ⟨?_, ho.theirs⟩
    · intro id t ht hnone
      cases hnone.symm.trans ht
    · intro id t t₀ _ _ ht₀ ht
      cases ht₀.symm.trans ht
      exact ⟨rfl, rfl⟩
  · exact .of_beside ho h hc

theorem Calm.of_unchanged (ho : A.Owned sc)
    (touches : ∀ id, (Moment.mk sc.world ⟨o, r⟩ sc.world).touched = some id →
      A.Created sc.history id) : A.Calm sc (sc.after o r sc.world) :=
  .of_keeps ho (.refl _) (.refl _) touches

/-- The attempt writes its deployment. What it records, the attempts made, and it
recognises every template of theirs. -/
theorem Owned.record {s : Store} {d : TemplateDeployment} (ho : A.Owned sc)
    (same : s.assignments = sc.world.store.assignments)
    (row : s.deployments.lookup A.assignmentId = some d)
    (templateId : ∀ id, d.coderTemplateId = some id → A.Created sc.history id)
    (versionId : ∀ id, d.coderTemplateVersionId = some id → A.Made sc.history id)
    (known : A.Known d.coderTemplateId d.coderTemplateVersionId sc)
    (touches : ∀ id, (Moment.mk sc.world ⟨o, r⟩ { sc.world with store := s }).touched = some id →
      A.Created sc.history id)
    (stored : sc' = sc.after o r { sc.world with store := s }) :
    A.Owned sc' ∧ A.Window d.coderTemplateId d.coderTemplateVersionId sc' ∧
      A.Known d.coderTemplateId d.coderTemplateVersionId sc' := by
  subst stored
  have hkept : A.service.Keeps sc.world.remote ({ sc.world with store := s } : Setting σ).remote :=
    .refl _
  have hcreated := created_after (o := o) (r := r) hkept
  have hmade := made_after (o := o) (r := r) hkept
  refine ⟨?_, ⟨?_, ?_, ?_, ?_⟩, ?_⟩
  · constructor
    · exact fun id hid => ho.created id ((hcreated id).mp hid)
    · exact fun id hid => ho.made id ((hmade id).mp hid)
    · intro a ha
      change s.assignments.lookup A.assignmentId = some a at ha
      rw [same] at ha
      exact ho.place a ha
    · intro d' id hd' hid
      cases row.symm.trans hd'
      exact (hcreated id).mpr (templateId id hid)
    · intro d' id hd' hid
      cases row.symm.trans hd'
      exact (hmade id).mpr (versionId id hid)
    · intro a _ id t hid ht
      exact ⟨d, row, known id t ((hcreated id).mp hid) ht⟩
    · intro id id' hid hid' halive halive'
      exact ho.one id id' ((hcreated id).mp hid) ((hcreated id').mp hid') halive halive'
    · intro id t hid ht hm
      exact ho.theirs id t (fun hc => hid ((hcreated id).mpr hc)) ht ((hmade _).mp hm)
    · exact touchesOwn_cons.mpr ⟨touches, ho.touches⟩
  · exact fun _ => Option.isSome_iff_exists.mpr ⟨d, row⟩
  · intro d' hd'
    cases row.symm.trans hd'
    exact ⟨rfl, rfl⟩
  · exact fun id hid => (hcreated id).mpr (templateId id hid)
  · exact fun id hid => (hmade id).mpr (versionId id hid)
  · exact fun id t hid ht => known id t ((hcreated id).mp hid) ht

section Quiet
variable [A.service.Lawful A.url]

theorem keeps_quiet (h : quiet o = true) (performed : A.service.Performs w o r w') :
    A.service.Keeps w.remote w'.remote ∧ A.KeepsRecord w.store w'.store := by
  cases performed with
  | query => exact ⟨.refl _, .refl _⟩
  | call answered => exact ⟨TemplateService.Lawful.keeps A.url _ _ _ _ h answered, .refl _⟩
  | @transaction t reply _ v performed =>
      have hp := World.performed ⟨w.store⟩ reply (.transaction t)
      rw [performed] at hp
      cases hp with
      | rolledBack => exact ⟨.refl _, .refl _⟩
      | committed commit => exact ⟨.refl _, keepsRecord_committed h commit⟩

theorem calm_quiet (h : quiet o = true) (ho : A.Owned sc)
    (performed : A.service.Performs sc.world o r w) : A.Calm sc (sc.after o r w) := by
  obtain ⟨hremote, hstore⟩ := keeps_quiet h performed
  refine .of_keeps ho hremote hstore fun id hid => ?_
  rw [touched_quiet h] at hid
  cases hid

end Quiet

def Avoids {α : Type} (x : Except WorkerError α) : Prop := x ≠ .error ownedOutside

namespace Avoids
variable {α γ : Type}

theorem ok (a : α) : Avoids (.ok a) := nofun

theorem found {row : Option α} {error : WorkerError} (h : error ≠ ownedOutside) :
    Avoids (CoderManager.found row error) := by
  cases row with
  | none => exact fun he => h (Except.error.inj he)
  | some a => exact ok a

theorem bind {x : Except WorkerError α} {f : α → Except WorkerError γ} (hx : Avoids x)
    (hf : ∀ a, Avoids (f a)) : Avoids (x >>= f) := by
  cases x with
  | error e => exact fun he => hx (congrArg Except.error (Except.error.inj he))
  | ok a => exact hf a

theorem guard {c : Prop} [Decidable c] {error : WorkerError} {x : Except WorkerError α}
    (h : error ≠ ownedOutside) (hx : Avoids x) : Avoids (if c then throw error else x) := by
  split
  · exact fun he => h (Except.error.inj he)
  · exact hx

theorem mapM {l : List α} {f : α → Except WorkerError γ} (hf : ∀ a, Avoids (f a)) :
    Avoids (l.mapM f) := by
  induction l with
  | nil => exact ok []
  | cons a as ih =>
      rw [List.mapM_cons]
      exact .bind (hf a) fun _ => .bind ih fun _ => ok _

theorem lockOwnedTemplateTarget (s : Store) (claim : ExecutionClaim) (assignmentId : UUID)
    (expected : Option UUID) : Avoids (s.lockOwnedTemplateTarget claim assignmentId expected) := by
  unfold Store.lockOwnedTemplateTarget
  refine .bind (.found (by decide)) fun job => ?_
  refine .guard (by decide) (.bind (.found (by decide)) fun a => ?_)
  refine .guard (by decide) (.bind (.found (by decide)) fun i => ?_)
  refine .bind (.found (by decide)) fun t => .guard (by decide) (ok _)

theorem systemParameterValues (s : Store) (templateId : UUID) :
    Avoids (s.systemParameterValues templateId) :=
  .mapM fun _ => .bind (.found (by decide)) fun _ => .bind (.found (by decide)) fun _ => ok _

theorem prepareDeployment (s : Store) (claim : ExecutionClaim) (assignmentId templateId : UUID)
    (commit : String) (revision : Nat) :
    Avoids (s.prepareDeployment claim assignmentId templateId commit revision) := by
  unfold Store.prepareDeployment
  refine .bind (.lockOwnedTemplateTarget s claim assignmentId _) fun target => ?_
  refine .guard (by decide) (.bind (.found (by decide)) fun envelope => ?_)
  dsimp only
  split
  · exact .ok _
  · refine .bind (.found (by decide)) fun password => ?_
    exact .bind (.systemParameterValues s _) fun values => .ok _

theorem storeTemplateRemoteIds (s : Store) (claim : ExecutionClaim) (assignmentId : UUID)
    (organizationId templateId versionId : Option UUID) :
    Avoids (s.storeTemplateRemoteIds claim assignmentId organizationId templateId versionId) := by
  unfold Store.storeTemplateRemoteIds
  refine .bind (.lockOwnedTemplateTarget s claim assignmentId _) fun target => ?_
  exact .bind (.found (by decide)) fun _ => .ok _

theorem finishDeployment (s : Store) (claim : ExecutionClaim) (assignmentId : UUID)
    (commit : String) (revision : Nat) (success : Bool) :
    Avoids (s.finishDeployment claim assignmentId commit revision success) := by
  unfold Store.finishDeployment
  refine .bind (.lockOwnedTemplateTarget s claim assignmentId _) fun target => ?_
  split <;> exact .ok _

theorem performed {S : TemplateService σ} {w w' : Setting σ} {β : Type} {t : Transaction β}
    {r : Except WorkerError β} (h : S.Performs w (.transaction t) r w')
    (avoids : ∀ token, Avoids (w.store.transact token t)) : Avoids r := by
  cases h with
  | @transaction _ reply _ v performed =>
      simp only [World.perform] at performed
      split at performed
      · cases performed
        intro he
        cases he
      · split at performed
        · cases performed
          exact ok _
        · rename_i e he
          cases performed
          exact fun hr => avoids _ (he.trans (congrArg Except.error (Except.error.inj hr)))

end Avoids

end PublicationTarget
end CoderManager
