import Mathlib.Data.List.Basic

/-!
# Pages of a list

A list served page by page. An element stands on the page that its place in the
list falls into.
-/
namespace Paging

variable {α : Type}

def page (size : Nat) (items : List α) (number : Nat) : List α :=
  (items.drop (number * size)).take size

theorem mem_page {size : Nat} {items : List α} {number : Nat} {x : α} :
    x ∈ page size items number ↔
      ∃ place, number * size ≤ place ∧ place < (number + 1) * size ∧ items[place]? = some x := by
  simp only [page, List.mem_iff_getElem?, List.getElem?_take, List.getElem?_drop]
  constructor
  · rintro ⟨i, hi⟩
    split at hi
    · refine ⟨number * size + i, Nat.le_add_right _ _, ?_, hi⟩
      rw [Nat.add_mul, Nat.one_mul]
      omega
    · cases hi
  · rintro ⟨place, hle, hlt, hx⟩
    rw [Nat.add_mul, Nat.one_mul] at hlt
    refine ⟨place - number * size, ?_⟩
    rw [if_pos (by omega), Nat.add_sub_cancel' hle]
    exact hx

theorem length_page {size : Nat} {items : List α} {number : Nat}
    (more : number * size + (page size items number).length < items.length) :
    (page size items number).length = size := by
  have hlen : (page size items number).length = min size (items.length - number * size) := by
    simp [page]
  omega

def pageCount (size length : Nat) : Nat := (length + size - 1) / size

theorem lt_pageCount {size length number : Nat} (positive : 0 < size) :
    number < pageCount size length ↔ number * size < length := by
  unfold pageCount
  rw [Nat.lt_iff_add_one_le, Nat.le_div_iff_mul_le positive, Nat.add_mul, Nat.one_mul]
  omega

theorem page_eq_nil {size : Nat} {items : List α} {number : Nat}
    (beyond : items.length ≤ number * size) : page size items number = [] := by
  rw [page, List.drop_eq_nil_of_le beyond, List.take_nil]

theorem page_ne_nil {size : Nat} {items : List α} {number : Nat} (positive : 0 < size)
    (within : number < pageCount size items.length) : page size items number ≠ [] := by
  have hlt := (lt_pageCount positive).mp within
  rw [page, Ne, List.take_eq_nil_iff, List.drop_eq_nil_iff]
  omega

theorem length_page_of_lt {size : Nat} {items : List α} {number : Nat} (positive : 0 < size)
    (before : number + 1 < pageCount size items.length) :
    (page size items number).length = size := by
  have hlt := (lt_pageCount positive).mp before
  rw [Nat.add_mul, Nat.one_mul] at hlt
  rw [page, List.length_take, List.length_drop]
  omega

theorem exists_page {size : Nat} {items : List α} {x : α} (positive : 0 < size)
    (member : x ∈ items) : ∃ number < pageCount size items.length, x ∈ page size items number := by
  obtain ⟨place, hplace, hx⟩ := List.mem_iff_getElem.mp member
  have hdiv : place / size * size ≤ place := Nat.div_mul_le_self place size
  refine ⟨place / size, (lt_pageCount positive).mpr (by omega), mem_page.mpr ?_⟩
  refine ⟨place, hdiv, ?_, by rw [List.getElem?_eq_getElem hplace, hx]⟩
  have hmod := Nat.mod_lt place positive
  have hplace' := Nat.div_add_mod' place size
  rw [Nat.add_mul, Nat.one_mul]
  omega

/-- In a list in order of a key, an element has the place that counts the smaller keys. -/
theorem countP_lt_key {key : α → Nat} {items : List α} {place : Nat} {x : α}
    (sorted : (items.map key).Pairwise (· < ·)) (stands : items[place]? = some x) :
    (items.countP fun y => key y < key x) = place := by
  induction items generalizing place with
  | nil => cases stands
  | cons y items ih =>
      obtain ⟨hfirst, hrest⟩ := List.pairwise_cons.mp (List.map_cons ▸ sorted)
      cases place with
      | zero =>
          obtain rfl := Option.some.inj stands
          rw [List.countP_eq_zero]
          intro z hz
          rcases List.mem_cons.mp hz with rfl | hz
          · simp
          · simpa using Nat.le_of_lt (hfirst _ (List.mem_map_of_mem hz))
      | succ place =>
          have hlater : items[place]? = some x := stands
          have hlt : key y < key x :=
            hfirst _ (List.mem_map_of_mem (List.mem_of_getElem? hlater))
          rw [List.countP_cons_of_pos (by simpa using hlt), ih hrest hlater]

/-- So it stands on the page which that number falls into. -/
theorem mem_page_iff {key : α → Nat} {size : Nat} {items : List α} {number : Nat} {x : α}
    (positive : 0 < size) (sorted : (items.map key).Pairwise (· < ·)) (member : x ∈ items) :
    x ∈ page size items number ↔ (items.countP fun y => key y < key x) / size = number := by
  obtain ⟨place, hx⟩ := List.mem_iff_getElem?.mp member
  rw [countP_lt_key sorted hx, Nat.div_eq_iff positive, mem_page]
  constructor
  · rintro ⟨place', hle, hlt, hx'⟩
    obtain rfl := (countP_lt_key sorted hx).symm.trans (countP_lt_key sorted hx')
    rw [Nat.add_mul, Nat.one_mul] at hlt
    omega
  · intro h
    refine ⟨place, ?_, ?_, hx⟩
    · omega
    · rw [Nat.add_mul, Nat.one_mul]
      omega

theorem mem_of_mem_page {size : Nat} {items : List α} {number : Nat} {x : α}
    (h : x ∈ page size items number) : x ∈ items := by
  obtain ⟨place, -, -, hx⟩ := mem_page.mp h
  exact List.mem_of_getElem? hx

theorem page_before {size : Nat} {items : List α} {number later : Nat} {r : α → α → Prop}
    {x y : α} (sorted : items.Pairwise r) (lt : number < later)
    (hx : x ∈ page size items number) (hy : y ∈ page size items later) : r x y := by
  obtain ⟨place, -, hplace, hx⟩ := mem_page.mp hx
  obtain ⟨place', hplace', -, hy⟩ := mem_page.mp hy
  have hle : (number + 1) * size ≤ later * size := Nat.mul_le_mul_right size lt
  obtain ⟨hlt, rfl⟩ := List.getElem?_eq_some_iff.mp hx
  obtain ⟨hlt', rfl⟩ := List.getElem?_eq_some_iff.mp hy
  exact List.pairwise_iff_getElem.mp sorted _ _ hlt hlt' (by omega)

end Paging
