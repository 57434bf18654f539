import CoderManager.Repositories.Listings
import CoderManager.Results.PoolSessions
import Mathlib.Algebra.BigOperators.Ring.Finset

/-!
# Database statistics

What the statistics route reports is what the pool admits: no slot is counted
twice or hidden by the clamping, and the refusals of the pool can be read off it.
-/
namespace CoderManager
open Tables

section Counting
variable {α κ : Type} [DecidableEq κ]

theorem sum_length_filter (f : α → κ) {keys : List κ} (distinct : keys.Nodup) (rows : List α)
    (covered : ∀ r ∈ rows, f r ∈ keys) :
    (keys.map fun k => (rows.filter fun r => f r == k).length).sum = rows.length := by
  have hcount : ∀ k, (rows.filter fun r => f r == k).length = (rows.map f).count k := by
    intro k
    rw [List.count, List.countP_map, List.countP_eq_length_filter]
    rfl
  have hkeys : ∀ k ∈ (rows.map f : Multiset κ), k ∈ keys.toFinset := by
    intro k hk
    obtain ⟨r, hr, rfl⟩ := List.mem_map.mp (Multiset.mem_coe.mp hk)
    exact List.mem_toFinset.mpr (covered r hr)
  have hcard := Multiset.sum_count_eq_card hkeys
  rw [List.sum_toFinset _ distinct] at hcard
  simp only [Multiset.coe_count, Multiset.coe_card, List.length_map] at hcard
  simp only [hcount, hcard]

omit [DecidableEq κ] in
theorem length_rows_congr {β : Type} {t : Table κ α} {t' : Table κ β}
    (same : ∀ k, (∃ v, t.lookup k = some v) ↔ ∃ v, t'.lookup k = some v) :
    t.rows.length = t'.rows.length := by
  have hperm : (t.rows.map Prod.fst).Perm (t'.rows.map Prod.fst) := by
    apply (List.perm_ext_iff_of_nodup t.rows_keys_nodup t'.rows_keys_nodup).mpr
    intro k
    simpa [Table.mem_rows] using same k
  simpa using hperm.length_eq

end Counting

namespace Store

def itemStatistics (s : Store) (r : UUID × Database) : DatabaseItemStatistics where
  id := r.1
  name := r.2.name
  instanceMax := r.2.instanceMax
  allocatedInstances := s.allocationCount r.1
  availableSlots := r.2.instanceMax - s.allocationCount r.1

/-- The statistics are exact, and they foretell what the pool refuses. -/
structure StatisticsExact (s : Store) : Prop where
  items : ∀ item, item ∈ s.databaseStatistics.databases ↔
    ∃ r, s.databases.lookup r.1 = some r.2 ∧ item = s.itemStatistics r
  distinct : (s.databaseStatistics.databases.map (·.id)).Nodup
  count : s.databaseStatistics.databaseCount = s.databases.rows.length
  slots : ∀ item ∈ s.databaseStatistics.databases, 0 ≤ item.availableSlots
  allocated : s.databaseStatistics.allocatedInstances = s.instances.rows.length
  balance : s.databaseStatistics.totalCapacity =
    s.databaseStatistics.allocatedInstances + s.databaseStatistics.availableSlots
  available : s.databaseStatistics.availableSlots =
    (s.databaseStatistics.databases.map (·.availableSlots)).sum
  listed : ∀ item ∈ s.databaseStatistics.databases, ∀ page pageSize, ∃ served,
    s.listDatabaseInstances item.id page pageSize = .ok served ∧
      (served.total : Int) = item.allocatedInstances
  creation : ∀ application slug,
    s.createInstance application slug = .error .instanceDatabaseUnavailable ↔
      s.databaseStatistics.availableSlots = 0
  update : ∀ item ∈ s.databaseStatistics.databases, ∀ payload password,
    s.updateDatabase item.id payload password = .error .databaseCapacityConflict ↔
      (payload.instanceMax : Int) < item.allocatedInstances
  deletion : ∀ item ∈ s.databaseStatistics.databases,
    s.deleteDatabase item.id = .error .databaseInUse ↔ 0 < item.allocatedInstances

section Statistics
variable {s : Store}

theorem mem_listUsage {u : DatabaseUsage} : u ∈ s.listUsage ↔
    s.databases.lookup u.id = some u.database ∧ u.allocatedInstances = s.allocationCount u.id := by
  obtain ⟨id, d, count⟩ := u
  simp only [listUsage, orderBy, List.mem_insertionSort, List.mem_map, usage,
    DatabaseUsage.mk.injEq, Prod.exists, Table.mem_rows]
  constructor
  · rintro ⟨_, _, hrow, rfl, rfl, rfl⟩
    exact ⟨hrow, rfl⟩
  · rintro ⟨hrow, rfl⟩
    exact ⟨id, d, hrow, rfl, rfl, rfl⟩

theorem listUsage_ids_nodup (s : Store) : (s.listUsage.map DatabaseUsage.id).Nodup := by
  have hperm := ((s.databases.rows.map s.usage).perm_insertionSort
    fun a b => databaseKey a ≤ databaseKey b).map DatabaseUsage.id
  apply hperm.nodup_iff.mpr
  rw [List.map_map]
  exact s.databases.rows_keys_nodup

/-- Every instance is counted at the database it is allocated to, and at no other. -/
theorem Accounted.sum_allocated (hs : Accounted s) :
    (s.listUsage.map DatabaseUsage.allocatedInstances).sum = s.instances.rows.length := by
  have hrows : s.allocations.rows.length = s.instances.rows.length := by
    apply length_rows_congr
    intro id
    exact ⟨fun ⟨a, ha⟩ => (hs.housed id a ha).1, fun ⟨i, hi⟩ => hs.allocated id i hi⟩
  have hsum := sum_length_filter (fun r : UUID × DatabaseAllocation => r.2.databaseId)
    s.listUsage_ids_nodup s.allocations.rows (by
      rintro ⟨id, a⟩ hr
      obtain ⟨-, d, hd⟩ := hs.housed id a (Table.mem_rows.mp hr)
      exact List.mem_map.mpr ⟨s.usage (a.databaseId, d), mem_listUsage.mpr ⟨hd, rfl⟩, rfl⟩)
  rw [← hrows, ← hsum, List.map_map]
  apply congrArg
  apply List.map_congr_left
  intro u hu
  exact (mem_listUsage.mp hu).2

theorem Accounted.length_allocatedTo (hs : Accounted s) (id : UUID) :
    (s.instances.select fun instanceId _ => s.allocatedTo instanceId id).length =
      s.allocationCount id := by
  have hperm : ((s.instances.select fun instanceId _ => s.allocatedTo instanceId id).map
      Prod.fst).Perm ((s.allocations.select fun _ a => a.databaseId == id).map Prod.fst) := by
    have hnodup : ∀ {β : Type} (t : Table UUID β) p, ((t.select p).map Prod.fst).Nodup :=
      fun t p => t.rows_keys_nodup.sublist (List.filter_sublist.map _)
    apply (List.perm_ext_iff_of_nodup (hnodup _ _) (hnodup _ _)).mpr
    intro k
    simp only [List.mem_map, Prod.exists, Table.mem_select, exists_and_right, exists_eq_right,
      allocatedTo, Option.any_eq_true, beq_iff_eq]
    constructor
    · rintro ⟨-, a, ha, hid⟩
      exact ⟨a, ha, hid⟩
    · rintro ⟨a, ha, hid⟩
      exact ⟨(hs.housed k a ha).1, a, ha, hid⟩
  simpa [allocationCount] using hperm.length_eq

def freeSlots (u : DatabaseUsage) : Nat := u.database.instanceMax - u.allocatedInstances

theorem Accounted.allocated_le (hs : Accounted s) {u : DatabaseUsage} (h : u ∈ s.listUsage) :
    u.allocatedInstances ≤ u.database.instanceMax := by
  obtain ⟨hrow, hcount⟩ := mem_listUsage.mp h
  rw [hcount]
  exact hs.capacity u.id u.database hrow

theorem Accounted.sum_capacity (hs : Accounted s) :
    (s.listUsage.map fun u => u.database.instanceMax).sum =
      (s.listUsage.map DatabaseUsage.allocatedInstances).sum + (s.listUsage.map freeSlots).sum := by
  rw [← List.sum_map_add]
  apply congrArg
  apply List.map_congr_left
  intro u hu
  exact (Nat.add_sub_cancel' (hs.allocated_le hu)).symm

theorem sum_natCast {α : Type} (f : α → Nat) (l : List α) :
    (l.map fun a => (f a : Int)).sum = ((l.map f).sum : Nat) := by
  rw [Nat.cast_list_sum, List.map_map]
  rfl

theorem Accounted.databases_eq (hs : Accounted s) :
    s.databaseStatistics.databases =
      s.listUsage.map fun u => s.itemStatistics (u.id, u.database) := by
  apply List.map_congr_left
  intro u hu
  have hle := hs.allocated_le hu
  obtain ⟨-, hcount⟩ := mem_listUsage.mp hu
  rw [hcount] at hle ⊢
  simp only [itemStatistics, DatabaseItemStatistics.mk.injEq, true_and]
  omega

theorem Accounted.totals (hs : Accounted s) :
    s.databaseStatistics.totalCapacity =
      ((s.listUsage.map fun u => u.database.instanceMax).sum : Nat) ∧
    s.databaseStatistics.allocatedInstances =
      ((s.listUsage.map DatabaseUsage.allocatedInstances).sum : Nat) ∧
    s.databaseStatistics.availableSlots = ((s.listUsage.map freeSlots).sum : Nat) := by
  have hcapacity := sum_natCast (fun u : DatabaseUsage => u.database.instanceMax) s.listUsage
  have hallocated := sum_natCast DatabaseUsage.allocatedInstances s.listUsage
  have hsum := hs.sum_capacity
  refine ⟨hcapacity, hallocated, ?_⟩
  simp only [databaseStatistics, hcapacity, hallocated, hsum]
  omega

/-- A creation finds no database when no database has a free slot. -/
theorem leastUtilizedDatabase_eq_none : s.leastUtilizedDatabase = none ↔
    ∀ id d, s.databases.lookup id = some d → d.instanceMax ≤ s.allocationCount id := by
  have hselect := Table.length_select_eq_zero (t := s.databases)
    (p := fun id d => decide (s.allocationCount id < d.instanceMax))
  simp only [decide_eq_false_iff_not, Nat.not_lt] at hselect
  rw [← hselect, List.length_eq_zero_iff]
  constructor
  · intro h
    exact (foldl_pick_eq_none (s := s) _ _ h).2
  · intro h
    rw [leastUtilizedDatabase, h]
    rfl

theorem createInstance_unavailable {application slug : String} :
    s.createInstance application slug = .error .instanceDatabaseUnavailable ↔
      s.leastUtilizedDatabase = none := by
  cases h : s.leastUtilizedDatabase with
  | none => simp [createInstance, h, present, bind, Except.bind]
  | some r =>
      simp only [createInstance, h, present, require, bind, Except.bind, reduceCtorEq, iff_false]
      split
      · rename_i hrefused
        split at hrefused <;> cases hrefused
        exact fun h => by cases h
      · split
        · rename_i hrefused
          split at hrefused <;> cases hrefused
          exact fun h => by cases h
        · exact fun h => by cases h

theorem Accounted.creation_refused (hs : Accounted s) : s.leastUtilizedDatabase = none ↔
    s.databaseStatistics.availableSlots = 0 := by
  rw [leastUtilizedDatabase_eq_none, hs.totals.2.2, Nat.cast_eq_zero,
    List.sum_eq_zero_iff_forall_eq_nat]
  simp only [List.mem_map, forall_exists_index, and_imp, forall_apply_eq_imp_iff₂, freeSlots]
  constructor
  · intro h u hu
    obtain ⟨hrow, hcount⟩ := mem_listUsage.mp hu
    rw [hcount]
    exact Nat.sub_eq_zero_of_le (h u.id u.database hrow)
  · intro h id d hd
    exact Nat.le_of_sub_eq_zero (h (s.usage (id, d)) (mem_listUsage.mpr ⟨hd, rfl⟩))

theorem updateDatabase_refused {id : UUID} {d : Database} (row : s.databases.lookup id = some d)
    {payload : DatabaseFields} {password : Option String} :
    s.updateDatabase id payload password = .error .databaseCapacityConflict ↔
      payload.instanceMax < s.allocationCount id := by
  by_cases hroom : s.allocationCount id ≤ payload.instanceMax
  · have hnot : ¬payload.instanceMax < s.allocationCount id := Nat.not_lt.mpr hroom
    simp only [updateDatabase, row, present, require, hroom, decide_true, if_true, bind,
      Except.bind, hnot, iff_false]
    split
    · rename_i hrefused
      split at hrefused <;> cases hrefused
      exact fun h => by cases h
    · exact fun h => by cases h
  · simp [updateDatabase, row, present, require, hroom, bind, Except.bind, Nat.not_le.mp hroom]

theorem deleteDatabase_refused {id : UUID} {d : Database} (row : s.databases.lookup id = some d) :
    s.deleteDatabase id = .error .databaseInUse ↔ 0 < s.allocationCount id := by
  have hused : 0 < s.allocationCount id ↔
      s.allocations.any (fun _ a => a.databaseId == id) = true := by
    rw [Nat.pos_iff_ne_zero, Ne, allocationCount, Table.length_select_eq_zero, ← Table.any_eq_false,
      Bool.not_eq_false]
  rw [hused]
  cases hany : s.allocations.any (fun _ a => a.databaseId == id) <;>
    simp [deleteDatabase, row, present, require, hany, bind, Except.bind, pure, Except.pure]

theorem Accounted.statistics (hs : Accounted s) : StatisticsExact s := by
  obtain ⟨hcapacity, hallocated, havailable⟩ := hs.totals
  have hitems := hs.databases_eq
  have hitem : ∀ item ∈ s.databaseStatistics.databases, ∃ d,
      s.databases.lookup item.id = some d ∧ item = s.itemStatistics (item.id, d) := by
    intro item h
    rw [hitems] at h
    obtain ⟨u, hu, rfl⟩ := List.mem_map.mp h
    exact ⟨u.database, (mem_listUsage.mp hu).1, rfl⟩
  constructor
  case items =>
    intro item
    constructor
    · intro h
      obtain ⟨d, hd, heq⟩ := hitem item h
      exact ⟨(item.id, d), hd, heq⟩
    · rintro ⟨⟨id, d⟩, hd, rfl⟩
      rw [hitems]
      exact List.mem_map.mpr ⟨s.usage (id, d), mem_listUsage.mpr ⟨hd, rfl⟩, rfl⟩
  case distinct =>
    rw [hitems, List.map_map]
    exact s.listUsage_ids_nodup
  case count => simp [databaseStatistics, listUsage, orderBy]
  case slots =>
    intro item h
    obtain ⟨d, hd, heq⟩ := hitem item h
    have hle := hs.capacity item.id d hd
    rw [heq]
    simp only [itemStatistics]
    omega
  case allocated => rw [hallocated, hs.sum_allocated]
  case balance => rw [hcapacity, hallocated, havailable, hs.sum_capacity, Nat.cast_add]
  case available =>
    rw [havailable, hitems, List.map_map, ← sum_natCast]
    apply congrArg
    apply List.map_congr_left
    intro u hu
    have hle := hs.allocated_le hu
    obtain ⟨-, hcount⟩ := mem_listUsage.mp hu
    simp only [freeSlots, Function.comp_apply, itemStatistics, ← hcount]
    omega
  case listed =>
    intro item h page pageSize
    obtain ⟨d, hd, heq⟩ := hitem item h
    refine ⟨s.listInstances none (some item.id) page pageSize, ?_, ?_⟩
    · simp [listDatabaseInstances, hd, respond, bind, Except.bind, pure, Except.pure]
    · have hcount := hs.length_allocatedTo item.id
      rw [heq]
      simpa [listInstances, listPage, itemStatistics] using hcount
  case creation =>
    intro application slug
    rw [createInstance_unavailable, hs.creation_refused]
  case update =>
    intro item h payload password
    obtain ⟨d, hd, heq⟩ := hitem item h
    have hcount : item.allocatedInstances = s.allocationCount item.id :=
      congrArg (·.allocatedInstances) heq
    rw [updateDatabase_refused hd, hcount, Nat.cast_lt]
  case deletion =>
    intro item h
    obtain ⟨d, hd, heq⟩ := hitem item h
    have hcount : item.allocatedInstances = s.allocationCount item.id :=
      congrArg (·.allocatedInstances) heq
    rw [deleteDatabase_refused hd, hcount, Int.natCast_pos]

end Statistics
end Store

namespace Server

/-- In every state that any interleaving of the pool's requests reaches. -/
theorem statistics_are_exact (p : Server) (reached : Reached p) : p.store.StatisticsExact :=
  reached.safe.accounted.statistics

/-- Two instances on a pool of three places. -/
def occupied : List Label :=
  [.createDatabase ⟨"db", 2, "host", 5432, "coder", "coder"⟩ "secret",
    .createDatabase ⟨"spare", 1, "host", 5432, "coder", "coder"⟩ "secret"] ++
    .begin 0 (.createInstance "one" "aaaa") :: List.replicate 6 (.advance 0) ++
    .begin 1 (.createInstance "two" "bbbb") :: List.replicate 6 (.advance 1)

theorem occupied_statistics :
    (occupied.foldl Server.apply .empty).store.databaseStatistics.allocatedInstances = 2 ∧
    (occupied.foldl Server.apply .empty).store.StatisticsExact :=
  ⟨by decide +kernel, statistics_are_exact _ (reached_applies occupied)⟩

end Server
end CoderManager
