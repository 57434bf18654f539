import CoderManager.Refinement.Pool

/-!
# The books of the database pool

No database has more allocations than it may. A commit keeps that as long as whoever
adds an allocation or changes a limit holds the rows it counted.
-/
namespace CoderManager
open Tables Locks Store

namespace Store

/-- The books of the pool: no database has more allocations than it may, and
the instances are exactly those with an allocation, to a database that exists. -/
structure Accounted (s : Store) : Prop where
  capacity : ∀ id d, s.databases.lookup id = some d → s.allocationCount id ≤ d.instanceMax
  allocated : ∀ id i, s.instances.lookup id = some i → ∃ a, s.allocations.lookup id = some a
  housed : ∀ id a, s.allocations.lookup id = some a →
    (∃ i, s.instances.lookup id = some i) ∧ ∃ d, s.databases.lookup a.databaseId = some d
  instancesDrawn : ∀ id i, s.instances.lookup id = some i → id < s.nextId
  databasesDrawn : ∀ id d, s.databases.lookup id = some d → id < s.nextId

/-- What a committed change may do to the books. -/
structure Evolves (s s' : Store) : Prop where
  allocations : ∀ id a, s.allocations.lookup id = some a →
    s'.allocations.lookup id = some a ∨ s'.instances.lookup id = none
  databases : ∀ id d, s.databases.lookup id = some d → s'.databases.lookup id = none →
    s.allocationCount id = 0
  gone : ∀ id, id < s.nextId → s.databases.lookup id = none → s'.databases.lookup id = none
  nextId : s.nextId ≤ s'.nextId

/-- A change by others does not touch the rows session `n` holds, and adds no
allocation to them. -/
def Spares (s : Store) (locks : Holders LockedRow) (n : Nat) (s' : Store) : Prop :=
  ∀ id d, locks ⟨.database, id⟩ = some n → s.databases.lookup id = some d →
    s'.databases.lookup id = some d ∧ s'.allocationCount id ≤ s.allocationCount id

section Books
variable {s s' : Store}

theorem Accounted.empty : Accounted .empty := by
  constructor <;> intros <;> contradiction

theorem Evolves.refl (s : Store) : Evolves s s where
  allocations := fun _ _ h => .inl h
  databases := fun _ _ h h' => by rw [h] at h'; cases h'
  gone := fun _ _ h => h
  nextId := Nat.le_refl _

theorem allocationCount_congr (h : s'.allocations = s.allocations) (id : UUID) :
    s'.allocationCount id = s.allocationCount id := by
  unfold allocationCount
  rw [h]

theorem allocationCount_eq_zero {id : UUID} : s.allocationCount id = 0 ↔
    ∀ k a, s.allocations.lookup k = some a → a.databaseId ≠ id := by
  unfold allocationCount
  rw [Table.length_select_eq_zero]
  simp

theorem Accounted.leavesPool (hs : Accounted s) (h : LeavesPool s s') : Accounted s' where
  capacity := by
    intro id d hd
    rw [h.databases] at hd
    rw [allocationCount_congr h.allocations]
    exact hs.capacity id d hd
  allocated := by
    intro id i' hi
    have hsome := h.instances id
    rw [hi, Option.isSome_some, eq_comm, Option.isSome_iff_exists] at hsome
    obtain ⟨i, hi⟩ := hsome
    rw [h.allocations]
    exact hs.allocated id i hi
  housed := by
    intro id a ha
    rw [h.allocations] at ha
    obtain ⟨⟨i, hi⟩, hd⟩ := hs.housed id a ha
    have hsome := h.instances id
    rw [hi, Option.isSome_some, Option.isSome_iff_exists] at hsome
    exact ⟨hsome, h.databases ▸ hd⟩
  instancesDrawn := by
    intro id i' hi
    have hsome := h.instances id
    rw [hi, Option.isSome_some, eq_comm, Option.isSome_iff_exists] at hsome
    obtain ⟨i, hi⟩ := hsome
    exact Nat.lt_of_lt_of_le (hs.instancesDrawn id i hi) h.nextId
  databasesDrawn := by
    intro id d hd
    rw [h.databases] at hd
    exact Nat.lt_of_lt_of_le (hs.databasesDrawn id d hd) h.nextId

theorem Evolves.leavesPool (h : LeavesPool s s') : Evolves s s' where
  allocations := fun _ _ ha => .inl (h.allocations ▸ ha)
  databases := fun _ _ hd hd' => by rw [h.databases, hd] at hd'; cases hd'
  gone := fun _ _ hd => h.databases ▸ hd
  nextId := h.nextId

theorem Spares.leavesPool (h : LeavesPool s s') (locks : Holders LockedRow) (n : Nat) :
    Spares s locks n s' := by
  intro id d _ hd
  exact ⟨h.databases ▸ hd, Nat.le_of_eq (allocationCount_congr h.allocations id)⟩

theorem placement_eq_some {databases : List (UUID × Database)} {r : UUID × Database}
    (h : s.placement databases = some r) :
    r ∈ databases ∧ s.allocationCount r.1 < r.2.instanceMax := by
  rcases foldl_pick_eq_some (s := s) _ _ h with h | h
  · cases h
  · simpa using List.mem_filter.mp h

theorem placement_eq_none {databases : List (UUID × Database)}
    (h : s.placement databases = none) :
    ∀ r ∈ databases, r.2.instanceMax ≤ s.allocationCount r.1 := by
  obtain ⟨-, hnil⟩ := foldl_pick_eq_none (s := s) _ _ h
  intro r hr
  have := List.filter_eq_nil_iff.mp hnil r hr
  simpa using this

end Books

structure Committing (s : Store) (locks : Holders LockedRow) (n : Nat) (s' : Store) : Prop where
  accounted : Accounted s'
  evolves : Evolves s s'
  spares : ∀ m, m ≠ n → Spares s locks m s'

section Commits
variable {s s' : Store} {locks : Holders LockedRow} {n : Nat}

theorem Committing.of_leavesPool (hs : Accounted s) (h : LeavesPool s s') :
    Committing s locks n s' :=
  ⟨hs.leavesPool h, .leavesPool h, fun m _ => .leavesPool h locks m⟩

theorem ne_of_held {row : LockedRow} {m : Nat} (held : locks row = some n) (other : m ≠ n) :
    locks row ≠ some m := by
  intro h
  rw [held] at h
  exact other (Option.some.inj h).symm

theorem Committing.placeInstance {application slug : String} {databaseId id : UUID} {d : Database}
    (hs : Accounted s) (held : locks ⟨.database, databaseId⟩ = some n)
    (row : s.databases.lookup databaseId = some d)
    (room : s.allocationCount databaseId < d.instanceMax)
    (placed : s.placeInstance application slug databaseId = .ok (id, s')) :
    Committing s locks n s' := by
  simp only [Store.placeInstance, bind_eq_ok, pure_eq_ok, require_eq_ok, Prod.mk.injEq, drawId,
    addJobExecution] at placed
  obtain ⟨-, -, -, -, rfl, rfl⟩ := placed
  have hfresh : s.allocations.lookup s.nextId = none := by
    cases ha : s.allocations.lookup s.nextId with
    | none => rfl
    | some a =>
        obtain ⟨⟨i, hi⟩, -⟩ := hs.housed _ a ha
        exact absurd (hs.instancesDrawn _ i hi) (Nat.lt_irrefl _)
  have hcount : ∀ databaseId', ((s.allocations.insert s.nextId
      { databaseId, schemaName := "coder_" ++ toString s.nextId }).select
        fun _ a => a.databaseId == databaseId').length =
      s.allocationCount databaseId' + if databaseId = databaseId' then 1 else 0 := by
    intro databaseId'
    rw [Table.length_select_insert_new hfresh]
    simp [allocationCount]
  have hnext : s.nextId < s.nextId + 1 + 1 := Nat.lt_succ_of_lt (Nat.lt_succ_self _)
  constructor
  case accounted =>
    constructor
    case capacity =>
      intro id' d' hd
      unfold allocationCount
      rw [hcount]
      by_cases hid : databaseId = id'
      · subst hid
        rw [row] at hd
        cases hd
        rw [if_pos rfl]
        exact room
      · rw [if_neg hid]
        exact hs.capacity id' d' hd
    case allocated =>
      intro id' i hi
      rcases Table.lookup_insert_cases hi with ⟨rfl, -⟩ | ⟨hne, hi⟩
      · exact ⟨_, Table.lookup_insert_self _ _ _⟩
      · obtain ⟨a, ha⟩ := hs.allocated id' i hi
        exact ⟨a, (Table.lookup_insert_ne _ _ hne).trans ha⟩
    case housed =>
      intro id' a ha
      rcases Table.lookup_insert_cases ha with ⟨rfl, rfl⟩ | ⟨hne, ha⟩
      · exact ⟨⟨_, Table.lookup_insert_self _ _ _⟩, d, row⟩
      · obtain ⟨⟨i, hi⟩, hd⟩ := hs.housed id' a ha
        exact ⟨⟨i, (Table.lookup_insert_ne _ _ hne).trans hi⟩, hd⟩
    case instancesDrawn =>
      intro id' i hi
      rcases Table.lookup_insert_cases hi with ⟨rfl, -⟩ | ⟨-, hi⟩
      · exact hnext
      · exact Nat.lt_trans (hs.instancesDrawn id' i hi) hnext
    case databasesDrawn =>
      intro id' d' hd
      exact Nat.lt_trans (hs.databasesDrawn id' d' hd) hnext
  case evolves =>
    constructor
    case allocations =>
      intro id' a ha
      have hne : id' ≠ s.nextId := by
        rintro rfl
        rw [hfresh] at ha
        cases ha
      exact .inl ((Table.lookup_insert_ne _ _ hne).trans ha)
    case databases =>
      intro id' d' hd hd'
      rw [hd] at hd'
      cases hd'
    case gone => exact fun _ _ h => h
    case nextId => exact Nat.le_of_lt hnext
  case spares =>
    intro m hm id' d' hheld hd
    have hne : databaseId ≠ id' := by
      rintro rfl
      exact ne_of_held held hm hheld
    refine ⟨hd, ?_⟩
    unfold allocationCount
    rw [hcount, if_neg hne]
    exact Nat.le_refl _

theorem Committing.putDatabase {databaseId : UUID} {d d' : Database} (hs : Accounted s)
    (held : locks ⟨.database, databaseId⟩ = some n) (row : s.databases.lookup databaseId = some d)
    (room : s.allocationCount databaseId ≤ d'.instanceMax) :
    Committing s locks n { s with databases := s.databases.insert databaseId d' } := by
  constructor
  case accounted =>
    constructor
    case capacity =>
      intro id d₁ hd
      rcases Table.lookup_insert_cases hd with ⟨rfl, rfl⟩ | ⟨-, hd⟩
      · exact room
      · exact hs.capacity id d₁ hd
    case allocated => exact hs.allocated
    case housed =>
      intro id a ha
      obtain ⟨hi, d₁, hd⟩ := hs.housed id a ha
      exact ⟨hi, Table.Covered.insert _ d₁ hd⟩
    case instancesDrawn => exact hs.instancesDrawn
    case databasesDrawn =>
      intro id d₁ hd
      rcases Table.lookup_insert_cases hd with ⟨rfl, -⟩ | ⟨-, hd⟩
      · exact hs.databasesDrawn _ d row
      · exact hs.databasesDrawn id d₁ hd
  case evolves =>
    constructor
    case allocations => exact fun _ _ h => .inl h
    case databases =>
      intro id d₁ hd hd'
      obtain ⟨d₂, h⟩ := Table.Covered.insert (k := databaseId) (v := d') _ d₁ hd
      rw [h] at hd'
      cases hd'
    case gone =>
      intro id _ hd
      have hne : id ≠ databaseId := by
        rintro rfl
        rw [row] at hd
        cases hd
      exact (Table.lookup_insert_ne _ _ hne).trans hd
    case nextId => exact Nat.le_refl _
  case spares =>
    intro m hm id d₁ hheld hd
    have hne : id ≠ databaseId := by
      rintro rfl
      exact ne_of_held held hm hheld
    exact ⟨(Table.lookup_insert_ne _ _ hne).trans hd, Nat.le_refl _⟩

theorem Committing.eraseDatabase {databaseId : UUID} (hs : Accounted s)
    (held : locks ⟨.database, databaseId⟩ = some n) (unused : s.allocationCount databaseId = 0) :
    Committing s locks n { s with databases := s.databases.erase databaseId } := by
  constructor
  case accounted =>
    constructor
    case capacity =>
      intro id d hd
      exact hs.capacity id d (Table.lookup_erase_some.mp hd).2
    case allocated => exact hs.allocated
    case housed =>
      intro id a ha
      obtain ⟨hi, d, hd⟩ := hs.housed id a ha
      have hne := allocationCount_eq_zero.mp unused id a ha
      exact ⟨hi, d, Table.lookup_erase_some.mpr ⟨hne, hd⟩⟩
    case instancesDrawn => exact hs.instancesDrawn
    case databasesDrawn =>
      intro id d hd
      exact hs.databasesDrawn id d (Table.lookup_erase_some.mp hd).2
  case evolves =>
    constructor
    case allocations => exact fun _ _ h => .inl h
    case databases =>
      intro id d hd hd'
      by_cases hid : id = databaseId
      · rw [hid]
        exact unused
      · have := (Table.lookup_erase_some (k := databaseId)).mpr ⟨hid, hd⟩
        rw [this] at hd'
        cases hd'
    case gone =>
      intro id _ hd
      by_cases hid : id = databaseId <;> simp [Table.lookup_erase, hid, hd]
    case nextId => exact Nat.le_refl _
  case spares =>
    intro m hm id d hheld hd
    have hne : id ≠ databaseId := by
      rintro rfl
      exact ne_of_held held hm hheld
    exact ⟨Table.lookup_erase_some.mpr ⟨hne, hd⟩, Nat.le_refl _⟩

theorem Committing.removeInstance (hs : Accounted s) (jobId id : UUID)
    (g : JobExecution → JobExecution) :
    Committing s locks n ((s.modifyJob jobId g).removeInstance id) := by
  have hle : ∀ databaseId, ((s.modifyJob jobId g).removeInstance id).allocationCount databaseId ≤
      s.allocationCount databaseId := fun _ => Table.length_select_erase_le
  constructor
  case accounted =>
    constructor
    case capacity =>
      intro id' d hd
      exact Nat.le_trans (hle id') (hs.capacity id' d hd)
    case allocated =>
      intro id' i hi
      obtain ⟨hne, hi⟩ := Table.lookup_erase_some.mp hi
      obtain ⟨a, ha⟩ := hs.allocated id' i hi
      exact ⟨a, Table.lookup_erase_some.mpr ⟨hne, ha⟩⟩
    case housed =>
      intro id' a ha
      obtain ⟨hne, ha⟩ := Table.lookup_erase_some.mp ha
      obtain ⟨⟨i, hi⟩, hd⟩ := hs.housed id' a ha
      exact ⟨⟨i, Table.lookup_erase_some.mpr ⟨hne, hi⟩⟩, hd⟩
    case instancesDrawn =>
      intro id' i hi
      exact hs.instancesDrawn id' i (Table.lookup_erase_some.mp hi).2
    case databasesDrawn => exact hs.databasesDrawn
  case evolves =>
    constructor
    case allocations =>
      intro id' a ha
      by_cases hid : id' = id
      · subst hid
        exact .inr (by simp [Store.removeInstance, Table.lookup_erase])
      · exact .inl (Table.lookup_erase_some.mpr ⟨hid, ha⟩)
    case databases =>
      intro id' d hd hd'
      have hd'' : s.databases.lookup id' = none := hd'
      rw [hd] at hd''
      cases hd''
    case gone => exact fun _ _ h => h
    case nextId => exact Nat.le_refl _
  case spares =>
    intro m _ id' d _ hd
    exact ⟨hd, hle id'⟩

theorem Committing.insertDatabase {d : Database} (hs : Accounted s) :
    Committing s locks n
      { s with nextId := s.nextId + 1, databases := s.databases.insert s.nextId d } := by
  have hfresh : s.databases.lookup s.nextId = none := by
    cases hd : s.databases.lookup s.nextId with
    | none => rfl
    | some d => exact absurd (hs.databasesDrawn _ d hd) (Nat.lt_irrefl _)
  have hunused : s.allocationCount s.nextId = 0 := by
    rw [allocationCount_eq_zero]
    rintro id a ha hid
    obtain ⟨-, d, hd⟩ := hs.housed id a ha
    rw [hid, hfresh] at hd
    cases hd
  constructor
  case accounted =>
    constructor
    case capacity =>
      intro id d₁ hd
      rcases Table.lookup_insert_cases hd with ⟨rfl, rfl⟩ | ⟨-, hd⟩
      · exact Nat.le_trans (Nat.le_of_eq hunused) (Nat.zero_le _)
      · exact hs.capacity id d₁ hd
    case allocated => exact hs.allocated
    case housed =>
      intro id a ha
      obtain ⟨hi, d₁, hd⟩ := hs.housed id a ha
      exact ⟨hi, Table.Covered.insert _ d₁ hd⟩
    case instancesDrawn =>
      intro id i hi
      exact Nat.lt_succ_of_lt (hs.instancesDrawn id i hi)
    case databasesDrawn =>
      intro id d₁ hd
      rcases Table.lookup_insert_cases hd with ⟨rfl, -⟩ | ⟨-, hd⟩
      · exact Nat.lt_succ_self _
      · exact Nat.lt_succ_of_lt (hs.databasesDrawn id d₁ hd)
  case evolves =>
    constructor
    case allocations => exact fun _ _ h => .inl h
    case databases =>
      intro id d₁ hd hd'
      obtain ⟨d₂, h⟩ := Table.Covered.insert (k := s.nextId) (v := d) _ d₁ hd
      rw [h] at hd'
      cases hd'
    case gone =>
      intro id hlt hd
      exact (Table.lookup_insert_ne _ _ (Nat.ne_of_lt hlt)).trans hd
    case nextId => exact Nat.le_succ _
  case spares =>
    intro m _ id d₁ _ hd
    have hne : id ≠ s.nextId := Nat.ne_of_lt (hs.databasesDrawn id d₁ hd)
    exact ⟨(Table.lookup_insert_ne _ _ hne).trans hd, Nat.le_refl _⟩

end Commits
end Store

end CoderManager
