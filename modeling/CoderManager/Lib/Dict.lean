import Mathlib.Data.List.Nodup

/-!
# Dictionaries as lists of entries

A dictionary is a list of entries with distinct keys. Reading is `List.lookup`,
so two dictionaries agree when they answer every key alike.
-/
namespace Dicts

variable {K V α β ε : Type} {d : List (K × V)} {k : K} {v : V}

def Distinct (d : List (K × V)) : Prop := (d.map Prod.fst).Nodup

instance [DecidableEq K] (d : List (K × V)) : Decidable (Distinct d) :=
  inferInstanceAs (Decidable (List.Nodup _))

theorem distinct_filter (distinct : Distinct d) (p : K × V → Bool) : Distinct (d.filter p) :=
  List.Nodup.sublist (List.filter_sublist.map _) distinct

section Entries
variable {key : α → K} {value : α → Option V} {l : List α}

/-- One entry for each element that has a value. -/
def entries (key : α → K) (value : α → Option V) (l : List α) : List (K × V) :=
  l.filterMap fun a => (value a).map fun v => (key a, v)

theorem mem_entries : (k, v) ∈ entries key value l ↔ ∃ a ∈ l, key a = k ∧ value a = some v := by
  simp only [entries, List.mem_filterMap, Option.map_eq_some_iff, Prod.mk.injEq]
  constructor
  · rintro ⟨a, ha, w, hw, hkey, rfl⟩
    exact ⟨a, ha, hkey, hw⟩
  · rintro ⟨a, ha, hkey, hv⟩
    exact ⟨a, ha, v, hv, hkey, rfl⟩

theorem map_fst_entries (key : α → K) (value : α → Option V) (l : List α) :
    (entries key value l).map Prod.fst = (l.filter fun a => (value a).isSome).map key := by
  induction l with
  | nil => rfl
  | cons a l ih =>
      unfold entries at ih ⊢
      cases hv : value a <;> simp [hv, ih]

theorem distinct_entries (distinct : (l.map key).Nodup) : Distinct (entries key value l) := by
  unfold Distinct
  rw [map_fst_entries]
  exact List.Nodup.sublist (List.filter_sublist.map _) distinct

end Entries

section Lookup
variable [BEq K] [LawfulBEq K]

theorem mem_of_lookup (h : d.lookup k = some v) : (k, v) ∈ d := by
  obtain ⟨l₁, l₂, rfl, -⟩ := List.lookup_eq_some_iff.mp h
  simp

theorem lookup_of_mem (distinct : Distinct d) (h : (k, v) ∈ d) : d.lookup k = some v := by
  induction d with
  | nil => cases h
  | cons e d ih =>
      obtain ⟨k', v'⟩ := e
      obtain ⟨hfresh, hrest⟩ := List.nodup_cons.mp distinct
      rcases List.mem_cons.mp h with heq | hmem
      · cases heq
        exact List.lookup_cons_self
      · have hne : (k == k') = false := by
          refine beq_eq_false_iff_ne.mpr ?_
          rintro rfl
          exact hfresh (List.mem_map.mpr ⟨(k, v), hmem, rfl⟩)
        rw [List.lookup_cons, hne]
        exact ih hrest hmem

theorem lookup_filter (keep : K → Bool) (d : List (K × V)) (k : K) :
    (d.filter fun e => keep e.1).lookup k = if keep k then d.lookup k else none := by
  induction d with
  | nil => simp
  | cons e d ih =>
      obtain ⟨k', v⟩ := e
      by_cases hk : k = k'
      · subst hk
        cases hkeep : keep k <;> simp [hkeep, ih]
      · have hne : (k == k') = false := beq_eq_false_iff_ne.mpr hk
        cases hkeep : keep k' <;> simp [hkeep, List.lookup_cons, hne, ih]

variable {key : α → K} {value : α → Option V} {l : List α}

theorem lookup_entries (distinct : (l.map key).Nodup) {a : α} (h : a ∈ l) :
    (entries key value l).lookup (key a) = value a := by
  cases hv : value a with
  | some v => exact lookup_of_mem (distinct_entries distinct) (mem_entries.mpr ⟨a, h, rfl, hv⟩)
  | none =>
      cases hl : (entries key value l).lookup (key a) with
      | none => rfl
      | some w =>
          obtain ⟨b, hb, hkey, hw⟩ := mem_entries.mp (mem_of_lookup hl)
          cases List.inj_on_of_nodup_map distinct hb h hkey
          cases hv.symm.trans hw

theorem lookup_entries_absent (h : ∀ a ∈ l, key a ≠ k) : (entries key value l).lookup k = none := by
  cases hl : (entries key value l).lookup k with
  | none => rfl
  | some w =>
      obtain ⟨b, hb, hkey, -⟩ := mem_entries.mp (mem_of_lookup hl)
      exact absurd hkey (h b hb)

end Lookup

section Assignment
variable [DecidableEq K]

theorem lookup_cons_ite (j k : K) (v : V) (l : List (K × V)) :
    ((k, v) :: l).lookup j = if j = k then some v else l.lookup j := by
  by_cases hj : j = k
  · rw [if_pos hj, hj, List.lookup_cons_self]
  · have hbeq : (j == k) = false := beq_eq_false_iff_ne.mpr hj
    rw [if_neg hj, List.lookup_cons, hbeq]

theorem lookup_append_one (fields : List (K × V)) (field : K) (value : V)
    (absent : (fields.any fun f => f.1 == field) = false) (j : K) :
    (fields ++ [(field, value)]).lookup j = if j = field then some value else fields.lookup j := by
  induction fields with
  | nil => exact lookup_cons_ite j field value []
  | cons f fields ih =>
      obtain ⟨k, v⟩ := f
      simp only [List.any_cons, Bool.or_eq_false_iff, beq_eq_false_iff_ne] at absent
      rw [List.cons_append, lookup_cons_ite, lookup_cons_ite, ih absent.2]
      by_cases hj : j = k
      · subst hj
        simp [absent.1]
      · simp [hj]

theorem lookup_replace (fields : List (K × V)) (field : K) (value : V)
    (present : (fields.any fun f => f.1 == field) = true) (j : K) :
    (fields.map fun f => if f.1 = field then (field, value) else f).lookup j =
      if j = field then some value else fields.lookup j := by
  by_cases hj : j = field
  · subst hj
    rw [if_pos rfl]
    induction fields with
    | nil => cases present
    | cons f fields ih =>
        obtain ⟨k, v⟩ := f
        by_cases hk : k = j
        · simp [hk]
        · have hrest : (fields.any fun f => f.1 == j) = true := by simpa [hk] using present
          rw [List.map_cons, if_neg hk, lookup_cons_ite, if_neg (Ne.symm hk), ih hrest]
  · rw [if_neg hj]
    clear present
    induction fields with
    | nil => rfl
    | cons f fields ih =>
        obtain ⟨k, v⟩ := f
        by_cases hk : k = field
        · subst hk
          simp only [List.map_cons, if_true, lookup_cons_ite, if_neg hj]
          exact ih
        · simp only [List.map_cons, if_neg hk, lookup_cons_ite]
          rw [ih]

end Assignment

theorem mapM_congr {f g : α → Except ε β} {l : List α} (same : ∀ a ∈ l, f a = g a) :
    l.mapM f = l.mapM g := by
  induction l with
  | nil => rfl
  | cons a l ih =>
      rw [List.mapM_cons, List.mapM_cons, same a List.mem_cons_self,
        ih fun b hb => same b (List.mem_cons_of_mem _ hb)]

theorem mapM_eq_ok {f : α → Except ε β} {good : α → Prop} {g : α → β}
    (spec : ∀ a b, f a = .ok b ↔ good a ∧ b = g a) {l : List α} {r : List β} :
    l.mapM f = .ok r ↔ (∀ a ∈ l, good a) ∧ r = l.map g := by
  induction l generalizing r with
  | nil => simp [pure, Except.pure, eq_comm]
  | cons a l ih =>
      rw [List.mapM_cons, List.forall_mem_cons]
      cases ha : f a with
      | error e =>
          have hbad : ¬good a := fun h => by
            rw [(spec a (g a)).mpr ⟨h, rfl⟩] at ha
            cases ha
          simp [bind, Except.bind, hbad]
      | ok b =>
          obtain ⟨hgood, rfl⟩ := (spec a b).mp ha
          cases hl : l.mapM f with
          | error e =>
              have hbad : ¬∀ a ∈ l, good a := fun h => by
                rw [ih.mpr ⟨h, rfl⟩] at hl
                cases hl
              exact iff_of_false (fun h => by cases h) fun h => hbad h.1.2
          | ok bs =>
              obtain ⟨hall, rfl⟩ := ih.mp hl
              constructor
              · intro h
                cases h
                exact ⟨⟨hgood, hall⟩, rfl⟩
              · rintro ⟨-, rfl⟩
                rfl

end Dicts
