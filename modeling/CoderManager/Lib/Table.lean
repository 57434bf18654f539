import Mathlib.Data.List.Nodup
import Mathlib.Data.List.Perm.Subperm

/-!
# Finite keyed tables

A table is a lookup function together with the identifiers it was ever given.
Lookups are pointwise, so an update is described by its effect on one key, and
the identifier list makes every query over the rows executable.
-/
namespace Tables

/-- A finite map from identifiers to rows. `keys` may keep an identifier whose
row was erased; it never misses one that is present. -/
structure Table (K α : Type) where
  lookup : K → Option α
  keys : List K
  nodup : keys.Nodup
  complete : ∀ k, lookup k ≠ none → k ∈ keys

namespace Table
variable {K α : Type}

def empty : Table K α where
  lookup := fun _ => none
  keys := []
  nodup := List.nodup_nil
  complete := fun _ h => absurd rfl h

instance : Inhabited (Table K α) := ⟨empty⟩

def insert [DecidableEq K] (t : Table K α) (k : K) (v : α) : Table K α where
  lookup := fun j => if j = k then some v else t.lookup j
  keys := if k ∈ t.keys then t.keys else k :: t.keys
  nodup := by
    split
    · exact t.nodup
    · exact List.nodup_cons.mpr ⟨‹_›, t.nodup⟩
  complete := by
    intro j hj
    by_cases hjk : j = k
    · subst hjk
      split
      · assumption
      · exact List.mem_cons_self
    · have hm := t.complete j (by simpa [hjk] using hj)
      split
      · exact hm
      · exact List.mem_cons_of_mem k hm

def filterMap (t : Table K α) (f : K → α → Option α) : Table K α where
  lookup := fun j => (t.lookup j).bind (f j)
  keys := t.keys
  nodup := t.nodup
  complete := fun j hj => t.complete j (fun hn => hj (by simp [hn]))

def modify [DecidableEq K] (t : Table K α) (k : K) (f : α → α) : Table K α :=
  t.filterMap (fun j v => if j = k then some (f v) else some v)

def erase [DecidableEq K] (t : Table K α) (k : K) : Table K α :=
  t.filterMap (fun j v => if j = k then none else some v)

def updateWhere (t : Table K α) (p : K → α → Bool) (f : α → α) : Table K α :=
  t.filterMap (fun j v => if p j v then some (f v) else some v)

def deleteWhere (t : Table K α) (p : K → α → Bool) : Table K α :=
  t.filterMap (fun j v => if p j v then none else some v)

def rows (t : Table K α) : List (K × α) :=
  t.keys.filterMap (fun k => (t.lookup k).map (fun v => (k, v)))

def select (t : Table K α) (p : K → α → Bool) : List (K × α) :=
  t.rows.filter (fun r => p r.1 r.2)

def any (t : Table K α) (p : K → α → Bool) : Bool := t.rows.any (fun r => p r.1 r.2)

def find? (t : Table K α) (p : K → α → Bool) : Option (K × α) := t.rows.find? (fun r => p r.1 r.2)

@[simp] theorem lookup_empty (k : K) : (empty : Table K α).lookup k = none := rfl

theorem lookup_insert [DecidableEq K] (t : Table K α) (k j : K) (v : α) :
    (t.insert k v).lookup j = if j = k then some v else t.lookup j := rfl

@[simp] theorem lookup_insert_self [DecidableEq K] (t : Table K α) (k : K) (v : α) :
    (t.insert k v).lookup k = some v := by simp [lookup_insert]

theorem lookup_insert_ne [DecidableEq K] (t : Table K α) {k j : K} (v : α) (h : j ≠ k) :
    (t.insert k v).lookup j = t.lookup j := by simp [lookup_insert, h]

theorem lookup_insert_cases [DecidableEq K] {t : Table K α} {k j : K} {v w : α}
    (h : (t.insert k v).lookup j = some w) : (j = k ∧ w = v) ∨ (j ≠ k ∧ t.lookup j = some w) := by
  by_cases hjk : j = k
  · rw [lookup_insert, if_pos hjk, Option.some.injEq] at h
    exact .inl ⟨hjk, h.symm⟩
  · rw [lookup_insert, if_neg hjk] at h
    exact .inr ⟨hjk, h⟩

theorem lookup_filterMap (t : Table K α) (f : K → α → Option α) (j : K) :
    (t.filterMap f).lookup j = (t.lookup j).bind (f j) := rfl

theorem lookup_modify [DecidableEq K] (t : Table K α) (k j : K) (f : α → α) :
    (t.modify k f).lookup j = if j = k then (t.lookup j).map f else t.lookup j := by
  unfold modify
  rw [lookup_filterMap]
  cases t.lookup j <;> by_cases h : j = k <;> simp [h]

@[simp] theorem lookup_modify_self [DecidableEq K] (t : Table K α) (k : K) (f : α → α) :
    (t.modify k f).lookup k = (t.lookup k).map f := by simp [lookup_modify]

theorem lookup_modify_ne [DecidableEq K] (t : Table K α) {k j : K} (f : α → α) (h : j ≠ k) :
    (t.modify k f).lookup j = t.lookup j := by simp [lookup_modify, h]

theorem lookup_erase [DecidableEq K] (t : Table K α) (k j : K) :
    (t.erase k).lookup j = if j = k then none else t.lookup j := by
  unfold erase
  rw [lookup_filterMap]
  cases t.lookup j <;> by_cases h : j = k <;> simp [h]

theorem lookup_modify_cases [DecidableEq K] {t : Table K α} {k j : K} {f : α → α} {w : α}
    (h : (t.modify k f).lookup j = some w) :
    (j = k ∧ ∃ v, t.lookup k = some v ∧ w = f v) ∨ (j ≠ k ∧ t.lookup j = some w) := by
  by_cases hjk : j = k
  · rw [lookup_modify, if_pos hjk, Option.map_eq_some_iff] at h
    obtain ⟨v, hv, rfl⟩ := h
    exact .inl ⟨hjk, v, hjk ▸ hv, rfl⟩
  · rw [lookup_modify, if_neg hjk] at h
    exact .inr ⟨hjk, h⟩

theorem lookup_erase_some [DecidableEq K] {t : Table K α} {k j : K} {w : α} :
    (t.erase k).lookup j = some w ↔ j ≠ k ∧ t.lookup j = some w := by
  by_cases hjk : j = k <;> simp [lookup_erase, hjk]

theorem lookup_updateWhere (t : Table K α) (p : K → α → Bool) (f : α → α) (j : K) :
    (t.updateWhere p f).lookup j = (t.lookup j).map (fun v => if p j v then f v else v) := by
  unfold updateWhere
  rw [lookup_filterMap]
  cases t.lookup j with
  | none => rfl
  | some v => by_cases h : p j v = true <;> simp [h]

theorem lookup_deleteWhere (t : Table K α) (p : K → α → Bool) (j : K) :
    (t.deleteWhere p).lookup j = (t.lookup j).filter (fun v => !p j v) := by
  unfold deleteWhere
  rw [lookup_filterMap]
  cases t.lookup j with
  | none => rfl
  | some v => by_cases h : p j v = true <;> simp [h, Option.filter]

theorem lookup_deleteWhere_some {t : Table K α} {p : K → α → Bool} {j : K} {w : α} :
    (t.deleteWhere p).lookup j = some w ↔ t.lookup j = some w ∧ p j w = false := by
  rw [lookup_deleteWhere, Option.filter_eq_some_iff]
  simp

theorem lookup_updateWhere_some {t : Table K α} {p : K → α → Bool} {f : α → α} {j : K} {w : α} :
    (t.updateWhere p f).lookup j = some w ↔
      ∃ v, t.lookup j = some v ∧ w = if p j v then f v else v := by
  rw [lookup_updateWhere, Option.map_eq_some_iff]
  exact exists_congr fun v => and_congr_right fun _ => eq_comm

theorem mem_rows {t : Table K α} {k : K} {v : α} : (k, v) ∈ t.rows ↔ t.lookup k = some v := by
  simp only [rows, List.mem_filterMap, Option.map_eq_some_iff, Prod.mk.injEq]
  constructor
  · rintro ⟨j, -, w, hw, rfl, rfl⟩
    exact hw
  · intro h
    exact ⟨k, t.complete k (by simp [h]), v, h, rfl, rfl⟩

theorem mem_select {t : Table K α} {p : K → α → Bool} {k : K} {v : α} :
    (k, v) ∈ t.select p ↔ t.lookup k = some v ∧ p k v = true := by
  simp [select, mem_rows]

theorem any_eq_true {t : Table K α} {p : K → α → Bool} :
    t.any p = true ↔ ∃ k v, t.lookup k = some v ∧ p k v = true := by
  simp [any, mem_rows]

theorem any_eq_false {t : Table K α} {p : K → α → Bool} :
    t.any p = false ↔ ∀ k v, t.lookup k = some v → p k v = false := by
  simp [any, mem_rows]

theorem find?_eq_some {t : Table K α} {p : K → α → Bool} {r : K × α}
    (h : t.find? p = some r) : t.lookup r.1 = some r.2 ∧ p r.1 r.2 = true := by
  unfold find? at h
  exact ⟨mem_rows.mp (List.mem_of_find?_eq_some h), by simpa using List.find?_some h⟩

theorem find?_eq_none {t : Table K α} {p : K → α → Bool} :
    t.find? p = none ↔ ∀ k v, t.lookup k = some v → p k v = false := by
  unfold find?
  rw [List.find?_eq_none]
  constructor
  · intro h k v hk
    simpa using h (k, v) (mem_rows.mpr hk)
  · rintro h ⟨k, v⟩ hr
    simp [h k v (mem_rows.mp hr)]

theorem find?_modify_key [DecidableEq K] {t : Table K α} {p : K → α → Bool} {k : K} {f : α → α}
    (same : ∀ j v, p j (f v) = p j v) :
    ((t.modify k f).find? p).map Prod.fst = (t.find? p).map Prod.fst := by
  unfold find? rows
  change Option.map _ ((t.keys.filterMap _).find? _) = _
  induction t.keys with
  | nil => rfl
  | cons j js ih =>
      cases hv : t.lookup j with
      | none =>
          have hv' : (t.modify k f).lookup j = none := by simp [lookup_modify, hv]
          rw [List.filterMap_cons_none (by rw [hv']; rfl), List.filterMap_cons_none (by rw [hv]; rfl)]
          exact ih
      | some v =>
          obtain ⟨w, hw, hp⟩ : ∃ w, (t.modify k f).lookup j = some w ∧ p j w = p j v := by
            by_cases hjk : j = k
            · exact ⟨f v, by rw [lookup_modify, if_pos hjk, hv]; rfl, same j v⟩
            · exact ⟨v, by rw [lookup_modify, if_neg hjk, hv], rfl⟩
          rw [List.filterMap_cons_some (by rw [hw]; rfl), List.filterMap_cons_some (by rw [hv]; rfl),
            List.find?_cons, List.find?_cons]
          simp only [hp]
          cases p j v with
          | true => rfl
          | false => exact ih

theorem rows_keys_nodup (t : Table K α) : (t.rows.map Prod.fst).Nodup := by
  have hkeys : t.rows.map Prod.fst = t.keys.filter (fun k => (t.lookup k).isSome) := by
    unfold rows
    induction t.keys with
    | nil => rfl
    | cons k ks ih => cases h : t.lookup k <;> simp [h, ih]
  rw [hkeys]
  exact t.nodup.filter _

theorem rows_nodup (t : Table K α) : t.rows.Nodup := t.rows_keys_nodup.of_map _

section Counting
variable [DecidableEq K] {t : Table K α} {p : K → α → Bool} {k : K} {v : α}

theorem length_select_insert_new (fresh : t.lookup k = none) :
    ((t.insert k v).select p).length = (t.select p).length + if p k v then 1 else 0 := by
  have hnew : (k, v) ∉ t.rows := by
    intro h
    rw [mem_rows, fresh] at h
    cases h
  have hperm : ((t.insert k v).rows).Perm ((k, v) :: t.rows) := by
    apply (List.perm_ext_iff_of_nodup (rows_nodup _)
      (List.nodup_cons.mpr ⟨hnew, rows_nodup t⟩)).mpr
    rintro ⟨j, w⟩
    rw [mem_rows, List.mem_cons, mem_rows, lookup_insert, Prod.mk.injEq]
    by_cases hj : j = k
    · subst hj
      simp [fresh, eq_comm]
    · simp [hj]
  unfold select
  rw [(hperm.filter _).length_eq, List.filter_cons]
  by_cases hp : p k v = true <;> simp [hp]

theorem length_select_erase_le : ((t.erase k).select p).length ≤ (t.select p).length := by
  have hsub : (t.erase k).select p ⊆ t.select p := by
    rintro ⟨j, w⟩ h
    rw [mem_select, lookup_erase_some] at h
    exact mem_select.mpr ⟨h.1.2, h.2⟩
  have hnodup : ((t.erase k).select p).Nodup := (rows_nodup _).filter _
  exact (hnodup.subperm hsub).length_le

omit [DecidableEq K] in
theorem length_select_eq_zero :
    (t.select p).length = 0 ↔ ∀ k v, t.lookup k = some v → p k v = false := by
  rw [List.length_eq_zero_iff, List.eq_nil_iff_forall_not_mem]
  constructor
  · intro h j w hj
    by_contra hp
    exact h (j, w) (mem_select.mpr ⟨hj, by simpa using hp⟩)
  · rintro h ⟨j, w⟩ hm
    obtain ⟨hj, hp⟩ := mem_select.mp hm
    rw [h j w hj] at hp
    cases hp

end Counting

section Columns
variable {γ : Type} {f : α → γ} {t t' t'' : Table K α}

/-- Every row of `t'` is a row of `t` with the same columns `f`. -/
def Within (f : α → γ) (t t' : Table K α) : Prop :=
  ∀ k v', t'.lookup k = some v' → ∃ v, t.lookup k = some v ∧ f v' = f v

/-- No row of `t` is gone in `t'`. -/
def Covered (t t' : Table K α) : Prop := ∀ k v, t.lookup k = some v → ∃ v', t'.lookup k = some v'

theorem Within.refl (f : α → γ) (t : Table K α) : Within f t t := fun _ v h => ⟨v, h, rfl⟩

theorem Within.trans (h : Within f t t') (h' : Within f t' t'') : Within f t t'' := by
  intro k v'' hv
  obtain ⟨v', hv', hf'⟩ := h' k v'' hv
  obtain ⟨v, hv₀, hf⟩ := h k v' hv'
  exact ⟨v, hv₀, hf'.trans hf⟩

theorem Within.filterMap {g : K → α → Option α} (hg : ∀ k v v', g k v = some v' → f v' = f v) :
    Within f t (t.filterMap g) := by
  intro k v' hv
  rw [lookup_filterMap, Option.bind_eq_some_iff] at hv
  obtain ⟨v, hv, hgv⟩ := hv
  exact ⟨v, hv, hg k v v' hgv⟩

theorem Within.modify [DecidableEq K] {k : K} {g : α → α} (hg : ∀ v, f (g v) = f v) :
    Within f t (t.modify k g) := by
  refine Within.filterMap fun j v v' hv => ?_
  split at hv <;> cases hv
  · exact hg v
  · rfl

theorem Within.updateWhere {p : K → α → Bool} {g : α → α} (hg : ∀ v, f (g v) = f v) :
    Within f t (t.updateWhere p g) := by
  refine Within.filterMap fun j v v' hv => ?_
  split at hv <;> cases hv
  · exact hg v
  · rfl

theorem Within.deleteWhere {p : K → α → Bool} : Within f t (t.deleteWhere p) := by
  refine Within.filterMap fun j v v' hv => ?_
  split at hv <;> cases hv
  rfl

theorem Within.erase [DecidableEq K] {k : K} : Within f t (t.erase k) := by
  refine Within.filterMap fun j v v' hv => ?_
  split at hv <;> cases hv
  rfl

theorem Within.of_modify [DecidableEq K] {k : K} {g : α → α} (hg : ∀ v, f (g v) = f v) :
    Within f (t.modify k g) t := by
  intro j v hv
  by_cases hjk : j = k
  · exact ⟨g v, by simp [hjk, hjk ▸ hv], (hg v).symm⟩
  · exact ⟨v, by simpa [lookup_modify, hjk] using hv, rfl⟩

theorem Within.of_updateWhere {p : K → α → Bool} {g : α → α} (hg : ∀ v, f (g v) = f v) :
    Within f (t.updateWhere p g) t := by
  intro k v hv
  refine ⟨if p k v then g v else v, lookup_updateWhere_some.mpr ⟨v, hv, rfl⟩, ?_⟩
  split
  · exact (hg v).symm
  · rfl

theorem Within.of_insert [DecidableEq K] {k : K} {v : α}
    (same : ∀ w, t.lookup k = some w → f v = f w) : Within f (t.insert k v) t := by
  intro j w hw
  by_cases hjk : j = k
  · subst hjk
    exact ⟨v, by simp, (same w hw).symm⟩
  · exact ⟨w, by simpa [lookup_insert, hjk] using hw, rfl⟩

theorem Covered.refl (t : Table K α) : Covered t t := fun _ v h => ⟨v, h⟩

theorem Covered.trans (h : Covered t t') (h' : Covered t' t'') : Covered t t'' := by
  intro k v hv
  obtain ⟨v', hv'⟩ := h k v hv
  exact h' k v' hv'

theorem Covered.modify [DecidableEq K] {k : K} {g : α → α} : Covered t (t.modify k g) := by
  intro j v hv
  by_cases hjk : j = k
  · exact ⟨g v, by simp [hjk, hjk ▸ hv]⟩
  · exact ⟨v, by simpa [lookup_modify, hjk] using hv⟩

theorem Covered.insert [DecidableEq K] {k : K} {v : α} : Covered t (t.insert k v) := by
  intro j w hw
  by_cases hjk : j = k
  · exact ⟨v, by simp [hjk]⟩
  · exact ⟨w, by simpa [lookup_insert, hjk] using hw⟩

end Columns

end Table
end Tables
