import CoderManager.Refinement.Parameters
import Mathlib.Data.String.Basic

/-!
# System parameters

The values a template publishes are resolved from its system parameters, by name.
They depend on the names and the stored values only, whatever order the rows are in.
-/
namespace CoderManager
open Tables Dicts

instance : Std.Total fun a b : UUID × TemplateParameter => a.2.name ≤ b.2.name :=
  ⟨fun _ _ => le_total _ _⟩

instance : IsTrans (UUID × TemplateParameter) fun a b => a.2.name ≤ b.2.name :=
  ⟨fun _ _ _ => le_trans⟩

namespace Store

def HasSystemParameter (s : Store) (templateId id : UUID) (name : String) : Prop :=
  ∃ p, s.parameters.lookup id = some p ∧ p.templateId = templateId ∧ p.type = .system ∧ p.name = name

def systemParameters (s : Store) (templateId : UUID) : List (UUID × String) :=
  (((s.parameters.select fun _ p => p.templateId == templateId).insertionSort
    (fun a b => a.2.name ≤ b.2.name)).filter fun p => p.2.type == .system).map fun p => (p.1, p.2.name)

def systemValue (s : Store) (p : UUID × String) : Except WorkerError (String × String) := do
  let value ← found (s.systemValues.lookup p.1)
    (.templateTargetSyncError "Template system parameter value is missing")
  return (p.2, ← found (value.decrypt p.1) .decryptionError)

variable {s s' : Store} {templateId : UUID}

theorem systemParameterValues_eq :
    s.systemParameterValues templateId = (s.systemParameters templateId).mapM s.systemValue := by
  rw [systemParameters, List.mapM_map]
  rfl

theorem mem_systemParameters {id : UUID} {name : String} :
    (id, name) ∈ s.systemParameters templateId ↔ s.HasSystemParameter templateId id name := by
  simp only [systemParameters, List.mem_map, List.mem_filter,
    (List.perm_insertionSort _ _).mem_iff, Table.mem_select, Prod.exists, Prod.mk.injEq, beq_iff_eq]
  constructor
  · rintro ⟨id, p, ⟨⟨hp, hown⟩, htype⟩, rfl, rfl⟩
    exact ⟨p, hp, hown, htype, rfl⟩
  · rintro ⟨p, hp, hown, htype, rfl⟩
    exact ⟨id, p, ⟨⟨hp, hown⟩, htype⟩, rfl, rfl⟩

theorem systemParameters_sorted :
    (s.systemParameters templateId).Pairwise fun a b => a.2 ≤ b.2 := by
  refine List.pairwise_map.mpr (List.Pairwise.filter _ ?_)
  exact List.pairwise_insertionSort (fun a b : UUID × TemplateParameter => a.2.name ≤ b.2.name) _

theorem systemParameters_nodup : (s.systemParameters templateId).Nodup := by
  have hkeys : ((s.systemParameters templateId).map Prod.fst).Nodup := by
    rw [systemParameters, List.map_map]
    refine List.Nodup.sublist (List.filter_sublist.map _) ?_
    refine ((List.perm_insertionSort _ _).map _).nodup_iff.mpr ?_
    exact s.parameters.rows_keys_nodup.sublist (List.filter_sublist.map _)
  exact hkeys.of_map _

/-- The system parameters of a template and their values are the same. -/
structure SameSystem (s s' : Store) (templateId : UUID) : Prop where
  parameters : ∀ id name, s'.HasSystemParameter templateId id name ↔
    s.HasSystemParameter templateId id name
  values : ∀ id name, s.HasSystemParameter templateId id name →
    s'.systemValues.lookup id = s.systemValues.lookup id

theorem systemParameters_congr (apart : s.NamedApart) (same : s.SameSystem s' templateId) :
    s'.systemParameters templateId = s.systemParameters templateId := by
  have hperm : (s'.systemParameters templateId).Perm (s.systemParameters templateId) := by
    refine (List.perm_ext_iff_of_nodup systemParameters_nodup systemParameters_nodup).mpr ?_
    rintro ⟨id, name⟩
    rw [mem_systemParameters, mem_systemParameters]
    exact same.parameters id name
  refine hperm.eq_of_pairwise ?_ systemParameters_sorted systemParameters_sorted
  -- two parameters of one name are one row
  rintro ⟨id, name⟩ ⟨id', name'⟩ hmem hmem' hle hle'
  obtain rfl : name = name' := le_antisymm hle hle'
  obtain ⟨p, hp, hown, -, hname⟩ := (same.parameters id name).mp (mem_systemParameters.mp hmem)
  obtain ⟨p', hp', hown', -, hname'⟩ := mem_systemParameters.mp hmem'
  rw [apart id id' p p' hp hp' (hown.trans hown'.symm) (hname.trans hname'.symm)]

theorem systemParameterValues_congr (apart : s.NamedApart) (same : s.SameSystem s' templateId) :
    s'.systemParameterValues templateId = s.systemParameterValues templateId := by
  rw [systemParameterValues_eq, systemParameterValues_eq, systemParameters_congr apart same]
  refine mapM_congr ?_
  rintro ⟨id, name⟩ hmem
  rw [systemValue, systemValue, same.values id name (mem_systemParameters.mp hmem)]

/-- Every system parameter has a value sealed for it, and identifiers of parameters
were drawn before. -/
structure SystemValued (s : Store) : Prop where
  apart : s.NamedApart
  drawn : ∀ id p, s.parameters.lookup id = some p → id < s.nextId
  valued : ∀ id p, s.parameters.lookup id = some p → p.type = .system →
    ∃ value, s.systemValues.lookup id = some (.encrypt value id)

theorem systemNames_sorted (apart : s.NamedApart) (templateId : UUID) :
    ((s.systemParameters templateId).map Prod.snd).Pairwise (· < ·) := by
  have hdistinct : ((s.systemParameters templateId).map Prod.snd).Nodup := by
    refine List.Nodup.map_on ?_ systemParameters_nodup
    rintro ⟨id, name⟩ hmem ⟨id', name'⟩ hmem' rfl
    obtain ⟨p, hp, hown, -, hname⟩ := mem_systemParameters.mp hmem
    obtain ⟨p', hp', hown', -, hname'⟩ := mem_systemParameters.mp hmem'
    rw [apart id id' p p' hp hp' (hown.trans hown'.symm) (hname.trans hname'.symm)]
  have hsorted : ((s.systemParameters templateId).map Prod.snd).Pairwise (· ≤ ·) :=
    List.pairwise_map.mpr systemParameters_sorted
  exact (hsorted.and hdistinct).imp fun h => lt_of_le_of_ne h.1 h.2

/-- The values of a template are resolved, each name once and in order. -/
theorem SystemValued.resolves (valued : s.SystemValued) (templateId : UUID) :
    ∃ values, s.systemParameterValues templateId = .ok values ∧
      (values.map Prod.fst).Pairwise (· < ·) := by
  let stored := fun p : UUID × String =>
    (p.2, ((s.systemValues.lookup p.1).map fun v => v.plaintext).getD "")
  have hvalue : ∀ p ∈ s.systemParameters templateId, s.systemValue p = .ok (stored p) := by
    rintro ⟨id, name⟩ hmem
    obtain ⟨p, hp, -, htype, -⟩ := mem_systemParameters.mp hmem
    obtain ⟨value, hvalue⟩ := valued.valued id p hp htype
    simp only [systemValue, stored, hvalue]
    simp [found, Sealed.encrypt, Sealed.decrypt, bind, Except.bind, pure, Except.pure]
  refine ⟨(s.systemParameters templateId).map stored, ?_, ?_⟩
  · rw [systemParameterValues_eq, mapM_congr hvalue]
    have hspec : ∀ (p : UUID × String) b,
        (Except.ok (stored p) : Except WorkerError _) = .ok b ↔ True ∧ b = stored p :=
      fun p b => by rw [Except.ok.injEq, true_and, eq_comm]
    exact (mapM_eq_ok hspec).mpr ⟨fun _ _ => trivial, rfl⟩
  · rw [List.map_map]
    exact systemNames_sorted valued.apart templateId

namespace SameSystem

theorem of_ne {id : UUID}
    (parameters : ∀ k, k ≠ id → s'.parameters.lookup k = s.parameters.lookup k)
    (values : ∀ k, k ≠ id → s'.systemValues.lookup k = s.systemValues.lookup k)
    (before : ∀ name, ¬s.HasSystemParameter templateId id name)
    (after : ∀ name, ¬s'.HasSystemParameter templateId id name) : SameSystem s s' templateId where
  parameters := by
    intro k name
    by_cases hk : k = id
    · subst hk
      exact iff_of_false (after name) (before name)
    · rw [HasSystemParameter, HasSystemParameter, parameters k hk]
  values := by
    intro k name hsystem
    by_cases hk : k = id
    · subst hk
      exact absurd hsystem (before name)
    · exact values k hk

theorem replaced {id : UUID} {p p' : TemplateParameter}
    (row : s.parameters.lookup id = some p)
    (same : p'.templateId = p.templateId ∧ p'.type = p.type ∧ p'.name = p.name)
    (parameters : s'.parameters = s.parameters.insert id p')
    (values : s'.systemValues = s.systemValues) : SameSystem s s' templateId where
  parameters := by
    intro k name
    by_cases hk : k = id
    · subst hk
      simp only [HasSystemParameter, parameters, Table.lookup_insert_self, row, Option.some.injEq,
        exists_eq_left', same.1, same.2.1, same.2.2]
    · rw [HasSystemParameter, HasSystemParameter, parameters, Table.lookup_insert_ne _ _ hk]
  values := fun _ _ _ => by rw [values]

theorem not_system {id : UUID} {p : TemplateParameter} {name : String}
    (row : s.parameters.lookup id = some p) (other : p.templateId ≠ templateId ∨ p.type = .user) :
    ¬s.HasSystemParameter templateId id name := by
  rintro ⟨q, hq, hown, htype, -⟩
  cases row.symm.trans hq
  rcases other with hother | huser
  · exact hother hown
  · rw [huser] at htype
    cases htype

theorem not_present {id : UUID} {name : String} (absent : s.parameters.lookup id = none) :
    ¬s.HasSystemParameter templateId id name := by
  rintro ⟨q, hq, -⟩
  rw [absent] at hq
  cases hq

end SameSystem

namespace SystemValued

theorem of_eq (h : s.SystemValued) (nextId : s.nextId ≤ s'.nextId)
    (parameters : s'.parameters = s.parameters) (values : s'.systemValues = s.systemValues) :
    s'.SystemValued where
  apart := h.apart.of_eq parameters
  drawn := fun id p hp => Nat.lt_of_lt_of_le (h.drawn id p (parameters ▸ hp)) nextId
  valued := fun id p hp htype => values ▸ h.valued id p (parameters ▸ hp) htype

theorem replaced (h : s.SystemValued) {id : UUID} {p p' : TemplateParameter}
    (row : s.parameters.lookup id = some p)
    (same : p'.templateId = p.templateId ∧ p'.type = p.type ∧ p'.name = p.name)
    (nextId : s'.nextId = s.nextId) (parameters : s'.parameters = s.parameters.insert id p')
    (values : s'.systemValues = s.systemValues ∨
      ∃ value, s'.systemValues = s.systemValues.insert id (.encrypt value id)) :
    s'.SystemValued where
  apart := h.apart.replaced row same parameters
  drawn := by
    intro k q hq
    rw [parameters] at hq
    rw [nextId]
    rcases Table.lookup_insert_cases hq with ⟨rfl, rfl⟩ | ⟨-, hold⟩
    · exact h.drawn _ p row
    · exact h.drawn k q hold
  valued := by
    intro k q hq htype
    have hold : ∃ value, s.systemValues.lookup k = some (.encrypt value k) := by
      rw [parameters] at hq
      rcases Table.lookup_insert_cases hq with ⟨rfl, rfl⟩ | ⟨-, hold⟩
      · exact h.valued _ p row (same.2.1.symm.trans htype)
      · exact h.valued k q hold htype
    rcases values with heq | ⟨value, heq⟩
    · rw [heq]
      exact hold
    · rw [heq, Table.lookup_insert]
      split
      · rename_i hsame
        subst hsame
        exact ⟨value, rfl⟩
      · exact hold

theorem erased (h : s.SystemValued) (id : UUID) (nextId : s'.nextId = s.nextId)
    (parameters : s'.parameters = s.parameters.erase id)
    (values : s'.systemValues = s.systemValues.erase id) : s'.SystemValued where
  apart := h.apart.within (parameters ▸ .erase)
  drawn := by
    intro k q hq
    rw [parameters] at hq
    rw [nextId]
    exact h.drawn k q (Table.lookup_erase_some.mp hq).2
  valued := by
    intro k q hq htype
    rw [parameters] at hq
    obtain ⟨hne, hq⟩ := Table.lookup_erase_some.mp hq
    obtain ⟨value, hvalue⟩ := h.valued k q hq htype
    exact ⟨value, by rw [values, Table.lookup_erase_some]; exact ⟨hne, hvalue⟩⟩

theorem inserted (h : s.SystemValued) {p : TemplateParameter}
    (free : ∀ id q, s.parameters.lookup id = some q → q.templateId = p.templateId → q.name ≠ p.name)
    (nextId : s'.nextId = s.nextId + 1) (parameters : s'.parameters = s.parameters.insert s.nextId p)
    (values : (p.type = .user ∧ s'.systemValues = s.systemValues) ∨
      ∃ value, s'.systemValues = s.systemValues.insert s.nextId (.encrypt value s.nextId)) :
    s'.SystemValued where
  apart := h.apart.insert free parameters
  drawn := by
    intro k q hq
    rw [parameters] at hq
    rw [nextId]
    rcases Table.lookup_insert_cases hq with ⟨rfl, -⟩ | ⟨-, hold⟩
    · exact Nat.lt_succ_self _
    · exact Nat.lt_succ_of_lt (h.drawn k q hold)
  valued := by
    intro k q hq htype
    rw [parameters] at hq
    rcases Table.lookup_insert_cases hq with ⟨rfl, rfl⟩ | ⟨hne, hold⟩
    · rcases values with ⟨huser, -⟩ | ⟨value, heq⟩
      · rw [huser] at htype
        cases htype
      · exact ⟨value, by rw [heq, Table.lookup_insert_self]⟩
    · obtain ⟨value, hvalue⟩ := h.valued k q hold htype
      rcases values with ⟨-, heq⟩ | ⟨new, heq⟩
      · exact ⟨value, heq ▸ hvalue⟩
      · exact ⟨value, by rw [heq, Table.lookup_insert_ne _ _ hne, hvalue]⟩

theorem accepted (h : s.SystemValued) {r : Request} (ha : Accepted s r s')
    (nextId : s.nextId ≤ s'.nextId) : s'.SystemValued := by
  cases ha with
  | createUserParameter _ free => exact h.inserted free rfl rfl (.inl ⟨rfl, rfl⟩)
  | createSystemParameter _ free => exact h.inserted free rfl rfl (.inr ⟨_, rfl⟩)
  | updateParameter _ row _ same => exact h.replaced row same rfl rfl (.inl rfl)
  | updateSystemValue _ row _ _ same => exact h.replaced row same rfl rfl (.inr ⟨_, rfl⟩)
  | deleteUserParameter | deleteSystemParameter => exact h.erased _ rfl rfl rfl
  | @deleteTemplate id t images parameters systemValues row settled unassigned unused imagesKept
      parametersKept valuesKept =>
      subst parametersKept valuesKept
      refine ⟨h.apart.within .deleteWhere, fun k p hp => ?_, fun k p hp htype => ?_⟩
      · exact Nat.lt_of_lt_of_le (h.drawn k p (Table.lookup_deleteWhere_some.mp hp).1) nextId
      · obtain ⟨hold, hkept⟩ := Table.lookup_deleteWhere_some.mp hp
        obtain ⟨value, hvalue⟩ := h.valued k p hold htype
        exact ⟨value, Table.lookup_deleteWhere_some.mpr ⟨hvalue, by rw [hold]; exact hkept⟩⟩
  | updateTemplate | requestTemplateSync =>
      exact h.of_eq nextId (s.parameters_discardCurrentJob _) (s.systemValues_discardCurrentJob _)
  | createMember | updateMemberRole | requestMemberDeletion =>
      refine h.of_eq nextId ?_ ?_ <;>
      · unfold Store.requestInstanceUpdate
        split <;> rfl
  | _ => exact h.of_eq nextId rfl rfl

end SystemValued

structure Advances (s s' : Store) : Prop where
  nextId : s.nextId ≤ s'.nextId
  templates : ∀ id t', s'.templates.lookup id = some t' → s.nextId ≤ id ∨
    ∃ t, s.templates.lookup id = some t ∧ t.systemParameterRevision ≤ t'.systemParameterRevision ∧
      (t'.systemParameterRevision = t.systemParameterRevision →
        s'.systemParameterValues id = s.systemParameterValues id)

namespace Advances
variable {s'' : Store}

theorem refl (s : Store) : Advances s s :=
  ⟨Nat.le_refl _, fun _ t ht => .inr ⟨t, ht, Nat.le_refl _, fun _ => rfl⟩⟩

theorem trans (h : Advances s s') (h' : Advances s' s'') : Advances s s'' where
  nextId := Nat.le_trans h.nextId h'.nextId
  templates := by
    intro id t'' ht''
    rcases h'.templates id t'' ht'' with hnew | ⟨t', ht', hle', hsame'⟩
    · exact .inl (Nat.le_trans h.nextId hnew)
    · rcases h.templates id t' ht' with hnew | ⟨t, ht, hle, hsame⟩
      · exact .inl hnew
      · refine .inr ⟨t, ht, Nat.le_trans hle hle', fun heq => ?_⟩
        have heq' : t''.systemParameterRevision = t'.systemParameterRevision := by omega
        exact (hsame' heq').trans (hsame (heq'.symm.trans heq))

theorem of_within (nextId : s.nextId ≤ s'.nextId)
    (templates : Table.Within (fun t => t.systemParameterRevision) s.templates s'.templates)
    (parameters : s'.parameters = s.parameters) (values : s'.systemValues = s.systemValues) :
    Advances s s' where
  nextId := nextId
  templates := by
    intro id t' ht'
    obtain ⟨t, ht, hsame⟩ := templates id t' ht'
    refine .inr ⟨t, ht, Nat.le_of_eq hsame.symm, fun _ => ?_⟩
    simp only [systemParameterValues, parameters, values]

theorem of_narrowed (h : Narrowed s s') : Advances s s' := by
  refine of_within h.nextId (fun id t' ht' => ?_) h.parameters h.systemValues
  obtain ⟨t, ht, hcols⟩ := h.templates id t' ht'
  exact ⟨t, ht, congrArg (·.2.2.2.2.2.2) hcols⟩

theorem of_bump {id : UUID} (valued : s.SystemValued) (nextId : s.nextId ≤ s'.nextId)
    (templates : s'.templates = (s.bumpSystemParameterRevision id).templates)
    (others : ∀ templateId, templateId ≠ id → s.SameSystem s' templateId) : Advances s s' where
  nextId := nextId
  templates := by
    intro k t' ht'
    rw [templates] at ht'
    by_cases hk : k = id
    · subst hk
      obtain ⟨t, ht, rfl⟩ := Option.map_eq_some_iff.mp ((Table.lookup_modify_self _ _ _).symm.trans ht')
      exact .inr ⟨t, ht, Nat.le_succ _, fun heq => absurd heq (Nat.succ_ne_self _)⟩
    · have hold : s.templates.lookup k = some t' := (Table.lookup_modify_ne _ _ hk).symm.trans ht'
      exact .inr ⟨t', hold, Nat.le_refl _, fun _ =>
        systemParameterValues_congr valued.apart (others k hk)⟩

theorem of_same (valued : s.SystemValued) (nextId : s.nextId ≤ s'.nextId)
    (templates : s'.templates = s.templates)
    (same : ∀ templateId, s.SameSystem s' templateId) : Advances s s' where
  nextId := nextId
  templates := fun id t ht => .inr ⟨t, templates ▸ ht, Nat.le_refl _, fun _ =>
    systemParameterValues_congr valued.apart (same id)⟩

theorem within_discardCurrentJob (id : UUID) :
    Table.Within (fun t => t.systemParameterRevision) s.templates
      (s.discardCurrentJob id).templates := by
  rcases s.discardCurrentJob_cases id with ⟨h, -⟩ | ⟨t, jobId, -, -, h⟩ <;> rw [h]
  · exact .refl _ _
  · exact .modify fun _ => rfl

theorem deleteTemplate (valued : s.SystemValued) {id : UUID} (nextId : s.nextId ≤ s'.nextId)
    (templates : s'.templates = (s.discardCurrentJob id).templates.erase id)
    (parameters : s'.parameters = s.parameters.deleteWhere fun _ p => p.templateId == id)
    (values : s'.systemValues = s.systemValues.deleteWhere fun parameterId _ =>
      (s.parameters.lookup parameterId).any fun p => p.templateId == id) : Advances s s' where
  nextId := nextId
  templates := by
    intro k t' ht'
    rw [templates] at ht'
    obtain ⟨hk, ht'⟩ := Table.lookup_erase_some.mp ht'
    obtain ⟨t, ht, hsame⟩ := within_discardCurrentJob id k t' ht'
    refine .inr ⟨t, ht, Nat.le_of_eq hsame.symm, fun _ =>
      systemParameterValues_congr valued.apart ⟨fun pid name => ?_, fun pid name hsystem => ?_⟩⟩
    · rw [HasSystemParameter, HasSystemParameter, parameters]
      refine exists_congr fun p => ?_
      rw [Table.lookup_deleteWhere_some, and_assoc]
      refine and_congr_right fun _ => ⟨fun h => h.2, fun h => ⟨?_, h⟩⟩
      rw [h.1]
      simpa using hk
    · obtain ⟨p, hp, hown, -⟩ := hsystem
      have hkept : ((s.parameters.lookup pid).any fun p => p.templateId == id) = false := by
        rw [hp, Option.any_some, hown]
        simpa using hk
      rw [values, Table.lookup_deleteWhere, hkept]
      cases s.systemValues.lookup pid <;> rfl

theorem accepted (valued : s.SystemValued) {r : Request} (ha : Accepted s r s')
    (nextId : s.nextId ≤ s'.nextId) : Advances s s' := by
  have hfresh : s.parameters.lookup s.nextId = none := by
    refine Option.eq_none_iff_forall_not_mem.mpr fun p hp => ?_
    exact Nat.lt_irrefl _ (valued.drawn _ p hp)
  cases ha with
  | createUserParameter =>
      refine of_same valued nextId rfl fun templateId => .of_ne
        (fun k (hk : k ≠ s.nextId) => Table.lookup_insert_ne _ _ hk) (fun _ _ => rfl)
        (fun _ => SameSystem.not_present hfresh)
        fun _ => SameSystem.not_system (Table.lookup_insert_self _ _ _) (.inr rfl)
  | createSystemParameter =>
      refine of_bump valued nextId rfl fun templateId hne => .of_ne
        (fun k hk => Table.lookup_insert_ne _ _ hk) (fun k hk => Table.lookup_insert_ne _ _ hk)
        (fun _ => SameSystem.not_present hfresh)
        fun _ => SameSystem.not_system (Table.lookup_insert_self _ _ _) (.inl hne.symm)
  | updateParameter _ row _ same =>
      exact of_same valued nextId rfl fun templateId => .replaced row same rfl rfl
  | updateSystemValue _ row own _ same =>
      refine of_bump valued nextId rfl fun templateId hne => .of_ne
        (fun k hk => Table.lookup_insert_ne _ _ hk) (fun k hk => Table.lookup_insert_ne _ _ hk)
        (fun _ => SameSystem.not_system row (.inl (own ▸ hne.symm)))
        fun _ => SameSystem.not_system (Table.lookup_insert_self _ _ _)
          (.inl (same.1.trans own ▸ hne.symm))
  | deleteUserParameter _ row _ type =>
      refine of_same valued nextId rfl fun templateId => .of_ne
        (fun k hk => by simp [Table.lookup_erase, hk]) (fun k hk => by simp [Table.lookup_erase, hk])
        (fun _ => SameSystem.not_system row (.inr type))
        fun _ => SameSystem.not_present (by simp [Table.lookup_erase])
  | deleteSystemParameter _ row own =>
      refine of_bump valued nextId rfl fun templateId hne => .of_ne
        (fun k hk => by simp [Table.lookup_erase, hk]) (fun k hk => by simp [Table.lookup_erase, hk])
        (fun _ => SameSystem.not_system row (.inl (own ▸ hne.symm)))
        fun _ => SameSystem.not_present (by simp [Table.lookup_erase])
  | deleteTemplate _ _ _ _ _ parametersKept valuesKept =>
      exact deleteTemplate valued nextId rfl parametersKept valuesKept
  | createTemplate =>
      refine ⟨nextId, fun id t' ht' => ?_⟩
      rcases Table.lookup_insert_cases ht' with ⟨rfl, -⟩ | ⟨-, hold⟩
      · exact .inl (Nat.le_refl _)
      · exact .inr ⟨t', hold, Nat.le_refl _, fun _ => rfl⟩
  | updateTemplate =>
      exact of_within nextId ((within_discardCurrentJob _).trans (.modify fun _ => rfl))
        (s.parameters_discardCurrentJob _) (s.systemValues_discardCurrentJob _)
  | requestTemplateSync =>
      exact of_within nextId ((within_discardCurrentJob _).trans (.modify fun _ => rfl))
        (s.parameters_discardCurrentJob _) (s.systemValues_discardCurrentJob _)
  | createMember | updateMemberRole | requestMemberDeletion =>
      refine of_within nextId ?_ ?_ ?_ <;> unfold Store.requestInstanceUpdate <;> split
      all_goals first | exact .refl _ _ | rfl
  | _ => exact of_within nextId (.refl _ _) rfl rfl

end Advances

/-- The request names no system value, or the one that is stored. -/
def KeepsValue (s : Store) (parameterId : UUID) : ParameterUpdate → Prop
  | .system (some value) =>
      (s.systemValues.lookup parameterId).bind (fun v => v.decrypt parameterId) = some value
  | _ => True

theorem updateParameter_kept {id parameterId j : UUID} {displayName description : String}
    {update : ParameterUpdate} (keeps : s.KeepsValue parameterId update)
    (h : s.updateParameter id parameterId displayName description update = .ok (j, s')) :
    ∃ p p', s.parameters.lookup parameterId = some p ∧
      (p'.templateId = p.templateId ∧ p'.type = p.type ∧ p'.name = p.name) ∧
      s' = { s with parameters := s.parameters.insert parameterId p' } := by
  simp only [updateParameter, bind_eq_ok] at h
  obtain ⟨t, -, p, hp, h⟩ := h
  obtain ⟨hrow, -⟩ := lockParameter_ok hp
  cases htype : p.type <;> cases update <;> simp only [htype] at h
  case user.user required mutable defaultValue =>
    simp only [pure_eq_ok, Prod.mk.injEq] at h
    refine ⟨p, _, hrow, ?_, h.2.symm⟩
    exact ⟨rfl, htype.symm, rfl⟩
  case user.system | system.user => cases throw_eq_ok.mp h
  case system.system value =>
    cases value with
    | none =>
        simp only [pure_eq_ok, Prod.mk.injEq] at h
        refine ⟨p, _, hrow, ?_, h.2.symm⟩
        exact ⟨rfl, htype.symm, rfl⟩
    | some value =>
        obtain ⟨stored, hstored, hvalue⟩ := Option.bind_eq_some_iff.mp keeps
        simp only [hstored, hvalue, if_true, pure_eq_ok, Prod.mk.injEq] at h
        refine ⟨p, _, hrow, ?_, h.2.symm⟩
        exact ⟨rfl, htype.symm, rfl⟩

/-- Where the revision of a template comes from after a request: it moves only while
nothing converges the template. -/
theorem revision_cases {r : Request} (ha : Accepted s r s') {id : UUID} {t' : Template}
    (row : s'.templates.lookup id = some t') : s.nextId ≤ id ∨ ∃ t, s.templates.lookup id = some t ∧
      (t'.systemParameterRevision = t.systemParameterRevision ∨ s.Calm id t) := by
  have same : s.templates.lookup id = some t' → s.nextId ≤ id ∨ ∃ t,
      s.templates.lookup id = some t ∧
        (t'.systemParameterRevision = t.systemParameterRevision ∨ s.Calm id t) :=
    fun h => .inr ⟨t', h, .inl rfl⟩
  have bumped : ∀ {k : UUID} {t : Template}, s.Calm k t →
      (s.bumpSystemParameterRevision k).templates.lookup id = some t' → s.nextId ≤ id ∨ ∃ t,
        s.templates.lookup id = some t ∧
          (t'.systemParameterRevision = t.systemParameterRevision ∨ s.Calm id t) := by
    intro k t calm h
    by_cases hk : id = k
    · subst hk
      exact .inr ⟨t, calm.1, .inr calm⟩
    · exact same ((Table.lookup_modify_ne _ _ hk).symm.trans h)
  have within : Table.Within (fun t => t.systemParameterRevision) s.templates s'.templates →
      s.nextId ≤ id ∨ ∃ t, s.templates.lookup id = some t ∧
        (t'.systemParameterRevision = t.systemParameterRevision ∨ s.Calm id t) := by
    intro h
    obtain ⟨t, ht, hsame⟩ := h id t' row
    exact .inr ⟨t, ht, .inl hsame⟩
  cases ha with
  | createSystemParameter calm => exact bumped calm row
  | updateSystemValue calm => exact bumped calm row
  | deleteSystemParameter calm => exact bumped calm row
  | createTemplate =>
      rcases Table.lookup_insert_cases row with ⟨rfl, -⟩ | ⟨-, hold⟩
      · exact .inl (Nat.le_refl _)
      · exact same hold
  | updateTemplate =>
      exact within ((Advances.within_discardCurrentJob _).trans (.modify fun _ => rfl))
  | requestTemplateSync =>
      exact within ((Advances.within_discardCurrentJob _).trans (.modify fun _ => rfl))
  | deleteTemplate => exact within ((Advances.within_discardCurrentJob _).trans .erase)
  | createMember | updateMemberRole | requestMemberDeletion =>
      refine same ?_
      unfold Store.requestInstanceUpdate at row
      split at row <;> exact row
  | _ => exact same row

end Store
end CoderManager
