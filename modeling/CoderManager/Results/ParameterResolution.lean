import CoderManager.Refinement.Parameters

/-!
# Parameter resolution

A workspace request resolves its parameters from the values supplied and those
recorded before. Over any sequence of requests a recorded value changes only
under a mutable definition, and a name is recorded only under a definition.
-/
namespace CoderManager
open Tables Dicts

/-- The user parameters of a template. -/
structure Definitions where
  list : List TemplateParameter
  distinct : (list.map (·.name)).Nodup

/-- The values of a payload or of a workspace. -/
structure ParameterMap where
  entries : List (String × String)
  distinct : Distinct entries

section Failure
variable {definitions : List TemplateParameter} {supplied : List (String × String)}
  {previous : Option (List (String × String))}

/-- A supplied name is neither defined nor an unchanged entry. -/
def UnknownName (definitions : List TemplateParameter) (supplied : List (String × String))
    (previous : Option (List (String × String))) : Prop :=
  ∃ p ∈ supplied, (∀ d ∈ definitions, d.name ≠ p.1) ∧ (previous.getD []).lookup p.1 ≠ some p.2

/-- A required definition has no default and is neither supplied nor preserved. -/
def MissingValue (definitions : List TemplateParameter) (supplied : List (String × String))
    (previous : Option (List (String × String))) : Prop :=
  ∃ d ∈ definitions, d.required = some true ∧ d.defaultValue = none ∧
    supplied.lookup d.name = none ∧
    ¬(d.mutable = some false ∧ ((previous.getD []).lookup d.name).isSome = true)

/-- An immutable definition would resolve to another value than the recorded one. -/
def AlteredValue (definitions : List TemplateParameter) (supplied : List (String × String))
    (previous : Option (List (String × String))) : Prop :=
  ∃ d ∈ definitions, d.mutable = some false ∧ ∃ v, (previous.getD []).lookup d.name = some v ∧
    d.value supplied previous ≠ some v

theorem TemplateParameter.preserved_eq_none {d : TemplateParameter} : d.preserved previous = none ↔
    ¬(d.mutable = some false ∧ ((previous.getD []).lookup d.name).isSome = true) := by
  unfold preserved
  split
  · rename_i h
    simp only [h, true_and, Bool.not_eq_true, Option.isSome_eq_false_iff,
      Option.isNone_iff_eq_none]
  · rename_i h
    simp [h]

theorem TemplateParameter.preserved_eq_some {d : TemplateParameter} {v : String} :
    d.preserved previous = some v ↔
      d.mutable = some false ∧ (previous.getD []).lookup d.name = some v := by
  unfold preserved
  split
  · rename_i h
    simp [h]
  · rename_i h
    simp [h]

theorem TemplateParameter.not_accepts {d : TemplateParameter} : ¬d.Accepts supplied previous ↔
    (d.required = some true ∧ d.defaultValue = none ∧ supplied.lookup d.name = none ∧
      d.preserved previous = none) ∨
    ∃ v, d.preserved previous = some v ∧ d.value supplied previous ≠ some v := by
  constructor
  · intro h
    by_cases hkept : ∀ v, d.preserved previous = some v → d.value supplied previous = some v
    · refine .inl ?_
      by_cases hreq : d.required = some true
      · cases hv : d.value supplied previous with
        | none =>
            obtain ⟨hsupplied, hpreserved, hdefault⟩ := value_eq_none.mp hv
            exact ⟨hreq, hdefault, hsupplied, hpreserved⟩
        | some v => exact absurd ⟨fun _ => by rw [hv]; rfl, hkept⟩ h
      · exact absurd ⟨fun hr => absurd hr hreq, hkept⟩ h
    · refine .inr ?_
      simpa only [not_forall, exists_prop] using hkept
  · rintro (⟨hreq, hdefault, hsupplied, hpreserved⟩ | ⟨v, hpreserved, hne⟩) haccepts
    · have hsome := haccepts.filled hreq
      rw [value_eq_none.mpr ⟨hsupplied, hpreserved, hdefault⟩] at hsome
      cases hsome
    · exact hne (haccepts.kept v hpreserved)

theorem resolveParameters_fails :
    (∀ r, resolveParameters definitions supplied previous ≠ .ok r) ↔
      UnknownName definitions supplied previous ∨ MissingValue definitions supplied previous ∨
        AlteredValue definitions supplied previous := by
  have hfails : (∀ r, resolveParameters definitions supplied previous ≠ .ok r) ↔
      ¬((∀ p ∈ supplied, (∃ d ∈ definitions, d.name = p.1) ∨
          (previous.getD []).lookup p.1 = some p.2) ∧
        ∀ d ∈ definitions, d.Accepts supplied previous) := by
    constructor
    · rintro h ⟨hknown, haccepts⟩
      exact h _ (resolveParameters_eq_ok.mpr ⟨hknown, haccepts, rfl⟩)
    · intro h r hr
      obtain ⟨hknown, haccepts, -⟩ := resolveParameters_eq_ok.mp hr
      exact h ⟨hknown, haccepts⟩
  have hunknown : UnknownName definitions supplied previous ↔
      ¬∀ p ∈ supplied, (∃ d ∈ definitions, d.name = p.1) ∨
        (previous.getD []).lookup p.1 = some p.2 := by
    simp only [UnknownName, not_forall, not_or, not_exists, not_and, exists_prop, ne_eq]
  have haltered : MissingValue definitions supplied previous ∨
      AlteredValue definitions supplied previous ↔
        ¬∀ d ∈ definitions, d.Accepts supplied previous := by
    simp only [not_forall, exists_prop, TemplateParameter.not_accepts]
    simp only [MissingValue, AlteredValue, ← @TemplateParameter.preserved_eq_none previous,
      TemplateParameter.preserved_eq_some]
    constructor
    · rintro (⟨d, hd, h⟩ | ⟨d, hd, hmutable, v, hv, hne⟩)
      · exact ⟨d, hd, .inl h⟩
      · exact ⟨d, hd, .inr ⟨v, ⟨hmutable, hv⟩, hne⟩⟩
    · rintro ⟨d, hd, h | ⟨v, ⟨hmutable, hv⟩, hne⟩⟩
      · exact .inl ⟨d, hd, h⟩
      · exact .inr ⟨d, hd, hmutable, v, hv, hne⟩
  rw [hfails, hunknown, haltered]
  exact Classical.not_and_iff_not_or_not

end Failure

/-- A row of the next state keeps the recorded values whose definitions are
immutable or gone, and records no other new names than the defined ones. -/
structure Store.Records (s : Store) (id : UUID) (w' : Workspace) : Prop where
  names : ∀ name, (w'.parameters.lookup name).isSome = true →
    (∃ w, s.workspaces.lookup id = some w ∧ (w.parameters.lookup name).isSome = true) ∨
      ∃ d ∈ s.userParameters w'.templateId, d.name = name
  values : ∀ w, s.workspaces.lookup id = some w → ∀ name v, w.parameters.lookup name = some v →
    (∀ d ∈ s.userParameters w.templateId, d.name = name → d.mutable = some false) →
    w'.parameters.lookup name = some v

/-- A resolved name is defined or was recorded. -/
theorem defined_of_resolved {definitions : List TemplateParameter}
    {supplied r : List (String × String)} {previous : Option (List (String × String))}
    (resolved : resolveParameters definitions supplied previous = .ok r) {name : String}
    (h : (r.lookup name).isSome = true) :
    ((previous.getD []).lookup name).isSome = true ∨ ∃ d ∈ definitions, d.name = name := by
  by_cases hdefined : ∃ d ∈ definitions, d.name = name
  · exact .inr hdefined
  · left
    rw [lookup_resolved_absent resolved] at h
    · exact h
    · intro d hd hname
      exact hdefined ⟨d, hd, hname⟩

theorem lookup_resolved_kept {definitions : List TemplateParameter}
    (distinct : (definitions.map (·.name)).Nodup) {supplied r recorded : List (String × String)}
    (resolved : resolveParameters definitions supplied (some recorded) = .ok r)
    {name v : String} (hv : recorded.lookup name = some v)
    (himmutable : ∀ d ∈ definitions, d.name = name → d.mutable = some false) :
    r.lookup name = some v := by
  by_cases hdefined : ∃ d ∈ definitions, d.name = name
  · obtain ⟨d, hd, rfl⟩ := hdefined
    obtain ⟨-, haccepts, -⟩ := resolveParameters_eq_ok.mp resolved
    rw [lookup_resolved distinct resolved hd]
    have hpreserved : d.preserved (some recorded) = some v :=
      TemplateParameter.preserved_eq_some.mpr ⟨himmutable d hd rfl, hv⟩
    exact (haccepts d hd).kept v hpreserved
  · rw [lookup_resolved_absent resolved]
    · exact hv
    · intro d hd hname
      exact hdefined ⟨d, hd, hname⟩

namespace Store.Records
variable {s s' : Store} {id : UUID} {w w' : Workspace}

theorem same (row : s.workspaces.lookup id = some w) (h : w'.parameters = w.parameters) :
    s.Records id w' where
  names := fun name hname => .inl ⟨w, row, h ▸ hname⟩
  values := by
    intro w₁ hw₁ name v hv _
    cases row.symm.trans hw₁
    rw [h]
    exact hv

theorem configured (hg : s.Grounded) (apart : s.NamedApart) (h : Configured s s')
    (hw' : s'.workspaces.lookup id = some w') : s.Records id w' := by
  cases h with
  | undisturbed undisturbed =>
      obtain ⟨w, hw, hcolumns, -⟩ := undisturbed id w' hw'
      exact same hw (Workspace.parameters_of_columns hcolumns)
  | created resolved row =>
      rw [row] at hw'
      rcases Table.lookup_insert_cases hw' with ⟨rfl, rfl⟩ | ⟨-, hold⟩
      · constructor
        · intro name hname
          rcases defined_of_resolved resolved hname with hprevious | hdefined
          · cases hprevious
          · exact .inr hdefined
        · intro w hw
          exact absurd (hg.workspaces _ w hw).1 (Nat.lt_irrefl _)
      · exact same hold rfl
  | @updated payload id₁ w parameters found idle resolved row others =>
      by_cases hid : id = id₁
      · subst hid
        cases row.symm.trans hw'
        constructor
        · intro name hname
          rw [payload.lookup_updated] at hname
          rcases defined_of_resolved resolved hname with hprevious | hdefined
          · exact .inl ⟨w, found, hprevious⟩
          · exact .inr hdefined
        · intro w₁ hw₁ name v hv himmutable
          cases found.symm.trans hw₁
          rw [payload.lookup_updated]
          exact lookup_resolved_kept (apart.userParameters_distinct _) resolved hv himmutable
      · rw [others id hid] at hw'
        exact same hw' rfl

end Store.Records

/-- No move records anything else. -/
theorem Moved.records {w w' : World} {t : Trace} {what : WhatHappened} (hrun : Run w t)
    (hm : Moved w t what w') {id : UUID} {row : Workspace}
    (hrow : w'.store.workspaces.lookup id = some row) : w.store.Records id row := by
  rcases hm.store_cases with h | ⟨now, h⟩ | ⟨r, -, h⟩ | ⟨worker, β, tr, a, -, -, h⟩
  · rw [h] at hrow
    exact .same hrow rfl
  · rw [h] at hrow
    exact .same hrow rfl
  · exact .configured hrun.sound.grounded hrun.named_apart h.configured hrow
  · obtain ⟨old, hold, hcols⟩ := (Narrowed.committed h).workspaces id row hrow
    exact .same hold (congrArg (·.2.2.2.2.2.2.1) hcols)

/-- A request resolves its parameters by the rules, and over every run a value
changes only under a mutable definition. -/
theorem parameters_are_resolved :
    (∀ (definitions : Definitions) (supplied : ParameterMap) (previous : Option ParameterMap),
      let before := previous.map (·.entries)
      ((∀ r, resolveParameters definitions.list supplied.entries before ≠ .ok r) ↔
        UnknownName definitions.list supplied.entries before ∨
          MissingValue definitions.list supplied.entries before ∨
          AlteredValue definitions.list supplied.entries before) ∧
      ∀ r, resolveParameters definitions.list supplied.entries before = .ok r →
        Distinct r ∧
        (∀ name, (∀ d ∈ definitions.list, d.name ≠ name) →
          r.lookup name = (before.getD []).lookup name) ∧
        (∀ d ∈ definitions.list, r.lookup d.name = d.value supplied.entries before) ∧
        resolveParameters definitions.list r (some r) = .ok r) ∧
    -- Recorded values and names, at any step of any run.
    ∀ (steps : List Step) (l : Step),
      let s := (run steps).world.store
      let s' := (run (steps ++ [l])).world.store
      ∀ id w', s'.workspaces.lookup id = some w' → s.Records id w' := by
  constructor
  · intro definitions supplied previous before
    have hbefore : Distinct (before.getD []) := by
      cases previous with
      | none => exact List.nodup_nil
      | some p => exact p.distinct
    refine ⟨resolveParameters_fails, fun r hr => ⟨?_, ?_, ?_, ?_⟩⟩
    · exact resolved_distinct definitions.distinct hr hbefore
    · exact fun name hname => lookup_resolved_absent hr hname
    · exact fun d hd => lookup_resolved definitions.distinct hr hd
    · exact resolve_again definitions.distinct hr hbefore
  · intro steps l s s' id w' hw'
    rcases run_snoc steps l with ⟨hsame, -⟩ | ⟨what, hm, -, -⟩
    · have hold : s.workspaces.lookup id = some w' := by
        rw [← hw']
        exact congrArg (fun w : World => w.store.workspaces.lookup id) hsame.symm
      exact .same hold rfl
    · exact hm.records (run_reaches steps) hw'

end CoderManager
