import CoderManager.Lib.Dict
import CoderManager.Refinement.Workspaces

/-!
# Workspace parameters

What the definitions of a template make of the values supplied and recorded
before. Their names are distinct in every run.
-/
namespace CoderManager
open Tables Dicts

namespace TemplateParameter
variable (d : TemplateParameter) (supplied : List (String × String))
  (previous : Option (List (String × String)))

/-- The value an immutable parameter keeps. -/
def preserved : Option String :=
  if d.mutable = some false then (previous.getD []).lookup d.name else none

def value : Option String :=
  (supplied.lookup d.name).or ((d.preserved previous).or d.defaultValue)

variable {d supplied} in
theorem value_of_supplied {v : String} (h : supplied.lookup d.name = some v) :
    d.value supplied previous = some v := by
  unfold value
  rw [h]
  rfl

variable {d supplied previous} in
theorem value_eq_none : d.value supplied previous = none ↔ supplied.lookup d.name = none ∧
    d.preserved previous = none ∧ d.defaultValue = none := by
  simp only [value, Option.or_eq_none_iff]

/-- A required parameter has a value, and an immutable one keeps its own. -/
structure Accepts : Prop where
  filled : d.required = some true → (d.value supplied previous).isSome = true
  kept : ∀ v, d.preserved previous = some v → d.value supplied previous = some v

theorem resolveParameter_eq : resolveParameter d supplied previous =
    match d.value supplied previous with
    | none => if d.required = some true then .error .workspaceConfiguration else .ok none
    | some v =>
        if ∀ w, d.preserved previous = some w → w = v then .ok (some v)
        else .error .workspaceParameterImmutable := by
  have hpreserved : d.preserved previous =
      if (previous.isSome && d.mutable == some false) = true then
        (previous.getD []).lookup d.name else none := by
    unfold preserved
    cases previous <;> simp
  unfold resolveParameter value
  rw [hpreserved]
  generalize (previous.isSome && d.mutable == some false) = immutable
  generalize (previous.getD []).lookup d.name = recorded
  generalize supplied.lookup d.name = given
  generalize d.defaultValue = default
  generalize d.required = required
  cases given with
  | some v =>
      cases immutable with
      | false => simp [bind, Except.bind, require, pure, Except.pure]
      | true =>
          cases recorded with
          | none => simp [bind, Except.bind, require, pure, Except.pure]
          | some w =>
              by_cases hw : w = v <;> simp [bind, Except.bind, require, pure, Except.pure, hw]
  | none =>
      cases immutable <;> cases recorded <;> cases default <;> cases required <;>
        simp [bind, Except.bind, require, pure, Except.pure]

theorem resolveParameter_eq_ok {o : Option String} : resolveParameter d supplied previous = .ok o ↔
    d.Accepts supplied previous ∧ o = d.value supplied previous := by
  rw [resolveParameter_eq]
  cases hv : d.value supplied previous with
  | none =>
      have hkept : d.preserved previous = none := by
        cases hw : d.preserved previous with
        | none => rfl
        | some w => exact absurd (value_eq_none.mp hv).2.1 (by simp [hw])
      by_cases hr : d.required = some true
      · have hbad : ¬d.Accepts supplied previous := fun h => by
          simpa [hv] using h.filled hr
        simp [hr, hbad]
      · have hgood : d.Accepts supplied previous :=
          ⟨fun h => absurd h hr, fun w hw => by rw [hkept] at hw; cases hw⟩
        simp [hr, hgood, eq_comm]
  | some v =>
      by_cases hkept : ∀ w, d.preserved previous = some w → w = v
      · have hgood : d.Accepts supplied previous :=
          ⟨fun _ => by simp [hv], fun w hw => by rw [hv, hkept w hw]⟩
        simp only [if_pos hkept, hgood, true_and, Except.ok.injEq]
        exact eq_comm
      · have hbad : ¬d.Accepts supplied previous := fun h =>
          hkept fun w hw => Option.some.inj ((h.kept w hw).symm.trans hv)
        simp [if_neg hkept, hbad]

end TemplateParameter

section Resolution
variable {definitions : List TemplateParameter} {supplied : List (String × String)}
  {previous : Option (List (String × String))} {r : List (String × String)}

/-- Historical entries, whose definitions are gone. -/
def keptParameters (definitions : List TemplateParameter)
    (previous : Option (List (String × String))) : List (String × String) :=
  (previous.getD []).filter fun p => !definitions.any fun d => d.name == p.1

def definedParameters (definitions : List TemplateParameter) (supplied : List (String × String))
    (previous : Option (List (String × String))) : List (String × String) :=
  entries (·.name) (fun d => d.value supplied previous) definitions

theorem resolveParameters_eq_ok : resolveParameters definitions supplied previous = .ok r ↔
    (∀ p ∈ supplied, (∃ d ∈ definitions, d.name = p.1) ∨
      (previous.getD []).lookup p.1 = some p.2) ∧
    (∀ d ∈ definitions, d.Accepts supplied previous) ∧
    r = keptParameters definitions previous ++ definedParameters definitions supplied previous := by
  have hstep : ∀ d : TemplateParameter, ∀ e : Option (String × String),
      (do return (← resolveParameter d supplied previous).map fun v => (d.name, v)) = .ok e ↔
        d.Accepts supplied previous ∧
          e = (d.value supplied previous).map fun v => (d.name, v) := by
    intro d e
    simp only [bind_eq_ok, pure_eq_ok, TemplateParameter.resolveParameter_eq_ok]
    constructor
    · rintro ⟨o, ⟨hd, rfl⟩, he⟩
      exact ⟨hd, he.symm⟩
    · rintro ⟨hd, rfl⟩
      exact ⟨_, ⟨hd, rfl⟩, rfl⟩
  have hentries : ∀ l : List TemplateParameter,
      (l.map fun d => (d.value supplied previous).map fun v => (d.name, v)).filterMap id =
        entries (·.name) (fun d => d.value supplied previous) l := by
    intro l
    simp [entries, List.filterMap_map]
  simp only [resolveParameters, bind_eq_ok, pure_eq_ok, require_eq_ok, mapM_eq_ok hstep,
    List.all_eq_true, Bool.or_eq_true, List.any_eq_true, beq_iff_eq]
  constructor
  · rintro ⟨-, hknown, -, ⟨haccepts, rfl⟩, rfl⟩
    exact ⟨hknown, haccepts, by rw [hentries]; rfl⟩
  · rintro ⟨hknown, haccepts, rfl⟩
    exact ⟨(), hknown, _, ⟨haccepts, rfl⟩, by rw [hentries]; rfl⟩

variable (distinct : (definitions.map (·.name)).Nodup)

theorem lookup_keptParameters (name : String) :
    (keptParameters definitions previous).lookup name =
      if ∃ d ∈ definitions, d.name = name then none else (previous.getD []).lookup name := by
  refine (lookup_filter (fun k => !definitions.any fun d => d.name == k) _ _).trans ?_
  by_cases h : ∃ d ∈ definitions, d.name = name
  · have hany : definitions.any (fun d => d.name == name) = true := by simpa using h
    rw [if_pos h, hany]
    rfl
  · have hany : definitions.any (fun d => d.name == name) = false := by simpa using h
    rw [if_neg h, hany]
    rfl

theorem lookup_definedParameters_absent {name : String} (h : ∀ d ∈ definitions, d.name ≠ name) :
    (definedParameters definitions supplied previous).lookup name = none :=
  lookup_entries_absent h

include distinct

theorem lookup_definedParameters {d : TemplateParameter} (h : d ∈ definitions) :
    (definedParameters definitions supplied previous).lookup d.name = d.value supplied previous :=
  lookup_entries distinct h

theorem lookup_resolved (resolved : resolveParameters definitions supplied previous = .ok r)
    {d : TemplateParameter} (h : d ∈ definitions) :
    r.lookup d.name = d.value supplied previous := by
  obtain ⟨-, -, rfl⟩ := resolveParameters_eq_ok.mp resolved
  rw [List.lookup_append, lookup_keptParameters, if_pos ⟨d, h, rfl⟩, lookup_definedParameters distinct h]
  rfl

omit distinct in
theorem lookup_resolved_absent (resolved : resolveParameters definitions supplied previous = .ok r)
    {name : String} (h : ∀ d ∈ definitions, d.name ≠ name) :
    r.lookup name = (previous.getD []).lookup name := by
  obtain ⟨-, -, rfl⟩ := resolveParameters_eq_ok.mp resolved
  have hno : ¬∃ d ∈ definitions, d.name = name := by
    rintro ⟨d, hd, hname⟩
    exact h d hd hname
  rw [List.lookup_append, lookup_keptParameters, if_neg hno, lookup_definedParameters_absent h]
  exact Option.or_none

theorem resolved_distinct (resolved : resolveParameters definitions supplied previous = .ok r)
    (hprevious : Distinct (previous.getD [])) : Distinct r := by
  obtain ⟨-, -, rfl⟩ := resolveParameters_eq_ok.mp resolved
  unfold Distinct
  rw [List.map_append]
  refine List.Nodup.append (distinct_filter hprevious _) (distinct_entries distinct) ?_
  intro name hkept hdefined
  obtain ⟨⟨k, v⟩, hmem, rfl⟩ := List.mem_map.mp hkept
  obtain ⟨⟨k', v'⟩, hmem', hk⟩ := List.mem_map.mp hdefined
  obtain ⟨d, hd, hname, -⟩ := mem_entries.mp hmem'
  have hundefined := (List.mem_filter.mp hmem).2
  simp only [Bool.not_eq_true', List.any_eq_false, beq_iff_eq] at hundefined
  exact hundefined d hd (hname.trans hk)

/-- What was resolved resolves to itself. -/
theorem resolve_again (resolved : resolveParameters definitions supplied previous = .ok r)
    (hprevious : Distinct (previous.getD [])) :
    resolveParameters definitions r (some r) = .ok r := by
  have hr := resolved_distinct distinct resolved hprevious
  obtain ⟨-, haccepts, heq⟩ := resolveParameters_eq_ok.mp resolved
  have hvalue : ∀ d ∈ definitions, d.value r (some r) = d.value supplied previous := by
    intro d hd
    have hlookup := lookup_resolved distinct resolved hd
    cases hv : d.value supplied previous with
    | some v => exact TemplateParameter.value_of_supplied _ (hlookup.trans hv)
    | none =>
        have habsent := hlookup.trans hv
        have hkept : d.preserved (some r) = none := by
          simp [TemplateParameter.preserved, habsent]
        exact TemplateParameter.value_eq_none.mpr
          ⟨habsent, hkept, (TemplateParameter.value_eq_none.mp hv).2.2⟩
  refine resolveParameters_eq_ok.mpr ⟨fun p hp => .inr (lookup_of_mem hr hp), ?_, ?_⟩
  · intro d hd
    have hlookup := lookup_resolved distinct resolved hd
    refine ⟨fun hreq => by rw [hvalue d hd]; exact (haccepts d hd).filled hreq, fun v hv => ?_⟩
    rw [hvalue d hd, ← hlookup]
    unfold TemplateParameter.preserved at hv
    split at hv
    · exact hv
    · cases hv
  · have hkept : keptParameters definitions (some r) = keptParameters definitions previous := by
      rw [heq]
      unfold keptParameters
      rw [Option.getD_some, List.filter_append, List.filter_filter]
      have hnone : (definedParameters definitions supplied previous).filter
          (fun p => !definitions.any fun d => d.name == p.1) = [] := by
        rw [List.filter_eq_nil_iff]
        rintro ⟨k, v⟩ hmem
        obtain ⟨d, hd, hname, -⟩ := mem_entries.mp hmem
        simpa using ⟨d, hd, hname⟩
      rw [hnone, List.append_nil]
      simp
    have hdefined : definedParameters definitions r (some r) =
        definedParameters definitions supplied previous := by
      unfold definedParameters entries
      refine List.filterMap_congr fun d hd => ?_
      dsimp only
      rw [hvalue d hd]
    rw [hkept, hdefined]
    exact heq

end Resolution

theorem lookup_of_sameParameters {a b : List (String × String)} (h : sameParameters a b = true)
    (name : String) : a.lookup name = b.lookup name := by
  simp only [sameParameters, Bool.and_eq_true, List.all_eq_true, beq_iff_eq] at h
  obtain ⟨hab, hba⟩ := h
  cases ha : a.lookup name with
  | some v => exact (hab (name, v) (mem_of_lookup ha)).symm
  | none =>
      cases hb : b.lookup name with
      | none => rfl
      | some v => exact ha.symm.trans (hba (name, v) (mem_of_lookup hb))

theorem WorkspaceFields.lookup_updated (payload : WorkspaceFields) (jobId : UUID)
    (parameters : List (String × String)) (w : Workspace) (name : String) :
    (payload.updated jobId parameters w).parameters.lookup name = parameters.lookup name := by
  unfold updated
  dsimp only
  split
  · exact lookup_of_sameParameters ‹_› name
  · rfl

def Store.NamedApart (s : Store) : Prop := ∀ id id' p p', s.parameters.lookup id = some p →
  s.parameters.lookup id' = some p' → p.templateId = p'.templateId → p.name = p'.name → id = id'

namespace Store.NamedApart
variable {s s' : Store}

theorem within (h : s.NamedApart)
    (kept : Table.Within (fun p => (p.templateId, p.name)) s.parameters s'.parameters) :
    s'.NamedApart := by
  intro id id' p p' hp hp' htemplate hname
  obtain ⟨q, hq, hcols⟩ := kept id p hp
  obtain ⟨q', hq', hcols'⟩ := kept id' p' hp'
  obtain ⟨ht, hn⟩ := Prod.mk.inj hcols
  obtain ⟨ht', hn'⟩ := Prod.mk.inj hcols'
  exact h id id' q q' hq hq' (ht.symm.trans (htemplate.trans ht'))
    (hn.symm.trans (hname.trans hn'))

theorem of_eq (h : s.NamedApart) (same : s'.parameters = s.parameters) : s'.NamedApart :=
  h.within (same ▸ .refl _ _)

theorem insert (h : s.NamedApart) {p : TemplateParameter}
    (free : ∀ id q, s.parameters.lookup id = some q → q.templateId = p.templateId → q.name ≠ p.name)
    (row : s'.parameters = s.parameters.insert s.nextId p) : s'.NamedApart := by
  intro id id' q q' hq hq' htemplate hname
  rw [row] at hq hq'
  rcases Table.lookup_insert_cases hq with ⟨rfl, rfl⟩ | ⟨-, hold⟩
  · rcases Table.lookup_insert_cases hq' with ⟨rfl, -⟩ | ⟨-, hold'⟩
    · rfl
    · exact absurd hname.symm (free _ _ hold' htemplate.symm)
  · rcases Table.lookup_insert_cases hq' with ⟨rfl, rfl⟩ | ⟨-, hold'⟩
    · exact absurd hname (free _ _ hold htemplate)
    · exact h id id' q q' hold hold' htemplate hname

theorem replaced (h : s.NamedApart) {id : UUID} {p p' : TemplateParameter}
    (row : s.parameters.lookup id = some p)
    (same : p'.templateId = p.templateId ∧ p'.type = p.type ∧ p'.name = p.name)
    (stored : s'.parameters = s.parameters.insert id p') : s'.NamedApart := by
  refine h.within fun k q hq => ?_
  rw [stored] at hq
  rcases Table.lookup_insert_cases hq with ⟨rfl, rfl⟩ | ⟨-, hq⟩
  · exact ⟨p, row, Prod.ext same.1 same.2.2⟩
  · exact ⟨q, hq, rfl⟩

theorem accepted (h : s.NamedApart) {r : Request} (ha : Accepted s r s') : s'.NamedApart := by
  cases ha with
  | createUserParameter _ free | createSystemParameter _ free => exact h.insert free rfl
  | updateParameter _ row _ same | updateSystemValue _ row _ _ same => exact h.replaced row same rfl
  | deleteUserParameter | deleteSystemParameter => exact h.within .erase
  | deleteTemplate _ _ _ _ _ parametersKept => exact h.within (parametersKept ▸ .deleteWhere)
  | updateTemplate | requestTemplateSync => exact h.of_eq (s.parameters_discardCurrentJob _)
  | requestInstanceDeletion | requestStart | requestStop | requestAssignmentDeletion
  | requestWorkspaceDeletion | requestSync | createKubernetesProvider | updateWorkspace =>
      exact h.of_eq rfl
  | createMember | updateMemberRole | requestMemberDeletion =>
      refine h.of_eq ?_
      unfold Store.requestInstanceUpdate
      split <;> rfl
  | _ => exact h.of_eq rfl

theorem userParameters_distinct (h : s.NamedApart) (templateId : UUID) :
    ((s.userParameters templateId).map (·.name)).Nodup := by
  unfold userParameters
  refine ((List.perm_insertionSort _ _).map _).nodup_iff.mpr ?_
  rw [List.map_map]
  refine List.Nodup.map_on ?_ (List.Nodup.filter _ (Table.rows_nodup _))
  rintro ⟨id, p⟩ hp ⟨id', p'⟩ hp' hname
  obtain ⟨hp, hown⟩ := Table.mem_select.mp hp
  obtain ⟨hp', hown'⟩ := Table.mem_select.mp hp'
  simp only [Bool.and_eq_true, beq_iff_eq] at hown hown'
  obtain rfl := h id id' p p' hp hp' (hown.1.trans hown'.1.symm) hname
  rw [hp, Option.some.injEq] at hp'
  rw [hp']

end Store.NamedApart

theorem Run.named_apart {w : World} {t : Trace} (h : Run w t) : w.store.NamedApart := by
  refine h.induction (motive := fun w _ => w.store.NamedApart) ?start ?move
  case start =>
    intro id id' p p' hp
    cases hp
  case move =>
    intro w t what w' hrun hm ih
    rcases hm.store_cases with h | ⟨now, h⟩ | ⟨r, -, h⟩ | ⟨worker, β, tr, a, -, -, h⟩
    · exact ih.of_eq (by rw [h])
    · exact ih.of_eq (by rw [h])
    · exact ih.accepted h
    · exact ih.of_eq (Narrowed.committed h).parameters

end CoderManager
