import CoderManager.Repositories.Listings
import CoderManager.Runs

/-!
# Lists

Every list route is read page by page: each matching row stands on exactly one
page, the pages follow one order, and the counts are those of the matching rows.
-/
namespace CoderManager
open Programs Tables

/-- The pages serve the rows in question once each, in the order of the key. -/
structure Partitioned {α κ : Type} [LinearOrder κ] (key : α → κ) (wanted : α → Prop)
    (pageSize : Nat) (serve : Nat → Page α) : Prop where
  shown : ∀ r, wanted r ↔ ∃ n, 1 ≤ n ∧ n ≤ (serve n).pages ∧ r ∈ (serve n).items
  once : ∀ m n r, 1 ≤ m → 1 ≤ n → r ∈ (serve m).items → r ∈ (serve n).items → m = n
  ordered : ∀ n, (serve n).items.Pairwise fun a b => key a < key b
  follows : ∀ m n a b, 1 ≤ m → m < n → a ∈ (serve m).items → b ∈ (serve n).items → key a < key b
  full : ∀ n, 1 ≤ n → n < (serve n).pages → (serve n).items.length = pageSize
  nonempty : ∀ n, 1 ≤ n → n ≤ (serve n).pages → (serve n).items ≠ []
  beyond : ∀ n, (serve n).pages < n → (serve n).items = []
  counted : ∃ rows : List α, rows.Nodup ∧ (∀ r, r ∈ rows ↔ wanted r) ∧
    ∀ n, (serve n).total = rows.length

/-- A list within a parent row, which answers 404 when that row is missing. -/
def PartitionedWithin {α β κ : Type} [LinearOrder κ] (parent : Option β) (missing : String)
    (key : α → κ) (wanted : α → Prop) (pageSize : Nat)
    (list : Nat → Except HttpException (Page α)) : Prop :=
  match parent with
  | none => ∀ n, list n = .error ⟨404, missing⟩
  | some _ => ∃ serve, (∀ n, list n = .ok (serve n)) ∧ Partitioned key wanted pageSize serve

/-- What the list routes show of a store. -/
structure ListsServed (s : Store) (pageSize : Nat) : Prop where
  databases : ∀ name : Option String, Partitioned Store.databaseKey
    (fun u => s.databases.lookup u.id = some u.database ∧
      u.allocatedInstances = s.allocationCount u.id ∧ name.all (icontains u.database.name ·) = true)
    pageSize (s.listDatabases name · pageSize)
  instances : ∀ (application : Option String) (databaseId : Option UUID),
    Partitioned Store.instanceKey
    (fun r => s.instances.lookup r.1 = some r.2 ∧ (∀ a ∈ application, r.2.application = a) ∧
      ∀ id ∈ databaseId, ∃ a, s.allocations.lookup r.1 = some a ∧ a.databaseId = id)
    pageSize (s.listInstances application databaseId · pageSize)
  databaseInstances : ∀ id, PartitionedWithin (s.databases.lookup id) "Database not found"
    Store.instanceKey
    (fun r => s.instances.lookup r.1 = some r.2 ∧
      ∃ a, s.allocations.lookup r.1 = some a ∧ a.databaseId = id)
    pageSize (s.listDatabaseInstances id · pageSize)
  members : ∀ id, PartitionedWithin (s.instances.lookup id) "Instance not found" Store.memberKey
    (fun r => s.members.lookup r.1 = some r.2 ∧ r.2.instanceId = id)
    pageSize (s.listMembers id · pageSize)
  templates : ∀ displayName : Option String, Partitioned Store.templateKey
    (fun r => s.templates.lookup r.1 = some r.2 ∧
      displayName.all (icontains r.2.displayName ·) = true)
    pageSize (s.listTemplates displayName · pageSize)
  images : ∀ id, PartitionedWithin (s.templates.lookup id) "Template not found" Store.imageKey
    (fun r => s.images.lookup r.1 = some r.2 ∧ r.2.templateId = id)
    pageSize (s.listTemplateImages id · pageSize)
  parameters : ∀ id, PartitionedWithin (s.templates.lookup id) "Template not found"
    Store.parameterKey
    (fun r => s.parameters.lookup r.1 = some r.2 ∧ r.2.templateId = id)
    pageSize (s.listTemplateParameters id · pageSize)
  assignments : ∀ id, PartitionedWithin (s.instances.lookup id) "Instance not found"
    Store.assignmentKey
    (fun r => s.assignments.lookup r.1.1 = some r.1.2 ∧ r.1.2.instanceId = id ∧
      s.templates.lookup r.1.2.templateId = some r.2)
    pageSize (s.listInstanceTemplates id · pageSize)
  workspaces : ∀ query : WorkspaceListQuery, Partitioned Store.workspaceKey
    (fun r => s.workspaces.lookup r.1 = some r.2 ∧ query.accepts r.2 = true)
    pageSize (s.listWorkspaces query · pageSize)

section Order
variable {α κ : Type} [LinearOrder κ] {key : α → κ} {rows : List α}

theorem mem_orderBy (key : α → κ) {r : α} : r ∈ orderBy key rows ↔ r ∈ rows :=
  List.mem_insertionSort _

theorem length_orderBy : (orderBy key rows).length = rows.length := List.length_insertionSort _ _

theorem orderBy_pairwise (distinct : (rows.map key).Nodup) :
    (orderBy key rows).Pairwise fun a b => key a < key b := by
  have hle : (orderBy key rows).Pairwise fun a b => key a ≤ key b := by
    have : Std.Total fun a b : α => key a ≤ key b := ⟨fun a b => le_total (key a) (key b)⟩
    have : IsTrans α fun a b => key a ≤ key b := ⟨fun a b c h h' => le_trans h h'⟩
    exact List.pairwise_insertionSort _ rows
  have hne : (orderBy key rows).Pairwise fun a b => key a ≠ key b := by
    have hperm : ((orderBy key rows).map key).Perm (rows.map key) :=
      (List.perm_insertionSort _ rows).map key
    exact List.pairwise_map.mp (hperm.nodup_iff.mpr distinct)
  exact (hle.and hne).imp fun h => lt_of_le_of_ne h.1 h.2

omit [LinearOrder κ] in
/-- A key that ends with the identifier tells the rows apart. -/
theorem distinct_keys (id : α → UUID) (last : κ → UUID) (ends : ∀ r, last (key r) = id r)
    (distinct : (rows.map id).Nodup) : (rows.map key).Nodup := by
  apply List.Nodup.of_map last
  rw [List.map_map]
  have heq : last ∘ key = id := funext ends
  rw [heq]
  exact distinct

theorem Partitioned.of_rows {wanted : α → Prop} {total pageSize : Nat} (positive : 0 < pageSize)
    (distinct : (rows.map key).Nodup) (counts : total = rows.length)
    (meets : ∀ r, r ∈ rows ↔ wanted r) :
    Partitioned key wanted pageSize (listPage key rows total · pageSize) := by
  subst counts
  have hsorted := orderBy_pairwise distinct
  have hbefore : ∀ m n a b, 1 ≤ m → m < n → a ∈ Paging.page pageSize (orderBy key rows) (m - 1) →
      b ∈ Paging.page pageSize (orderBy key rows) (n - 1) → key a < key b := by
    intro m n a b hm hlt ha hb
    exact Paging.page_before (r := fun a b => key a < key b) hsorted (by omega) ha hb
  have hpages : ∀ n, 1 ≤ n → (n ≤ (rows.length + pageSize - 1) / pageSize ↔
      n - 1 < Paging.pageCount pageSize (orderBy key rows).length) := by
    intro n hn
    rw [length_orderBy, Paging.pageCount]
    omega
  constructor
  case shown =>
    intro r
    rw [← meets, ← mem_orderBy key]
    constructor
    · intro hr
      obtain ⟨n, hn, hmem⟩ := Paging.exists_page positive hr
      exact ⟨n + 1, by omega, (hpages (n + 1) (by omega)).mpr hn, hmem⟩
    · rintro ⟨n, -, -, hmem⟩
      exact Paging.mem_of_mem_page hmem
  case once =>
    intro m n r hm hn hr hr'
    rcases Nat.lt_trichotomy m n with hlt | heq | hlt
    · exact absurd (hbefore m n r r hm hlt hr hr') (lt_irrefl _)
    · exact heq
    · exact absurd (hbefore n m r r hn hlt hr' hr) (lt_irrefl _)
  case ordered =>
    intro n
    exact (hsorted.sublist (List.drop_sublist _ _)).sublist (List.take_sublist _ _)
  case follows => exact hbefore
  case full =>
    intro n hn hlt
    have hlt' := (hpages (n + 1) (by omega)).mp hlt
    exact Paging.length_page_of_lt positive (by omega)
  case nonempty =>
    intro n hn hle
    exact Paging.page_ne_nil positive ((hpages n hn).mp hle)
  case beyond =>
    intro n hlt
    have hlt' : ¬n - 1 < Paging.pageCount pageSize (orderBy key rows).length := by
      intro h
      exact absurd ((hpages n (by omega)).mpr h) (Nat.not_le.mpr hlt)
    rw [Paging.lt_pageCount positive] at hlt'
    exact Paging.page_eq_nil (Nat.not_lt.mp hlt')
  case counted => exact ⟨rows, .of_map key distinct, meets, fun _ => rfl⟩

end Order

namespace Store
variable {s : Store} {pageSize : Nat}

theorem select_keys_nodup {α : Type} (t : Table UUID α) (p : UUID → α → Bool) :
    ((t.select p).map Prod.fst).Nodup :=
  t.rows_keys_nodup.sublist (List.filter_sublist.map _)

theorem served_select {α κ : Type} [LinearOrder κ] {key : UUID × α → κ} (last : κ → UUID)
    (ends : ∀ r, last (key r) = r.1) (positive : 0 < pageSize) (t : Table UUID α)
    (p : UUID → α → Bool) {wanted : UUID × α → Prop}
    (meets : ∀ r, t.lookup r.1 = some r.2 ∧ p r.1 r.2 = true ↔ wanted r) :
    Partitioned key wanted pageSize
      fun n => listPage key (t.select p) (t.select p).length n pageSize := by
  apply Partitioned.of_rows positive (distinct_keys Prod.fst last ends (select_keys_nodup t p)) rfl
  rintro ⟨id, row⟩
  rw [Table.mem_select]
  exact meets (id, row)

theorem map_fst_join {α β : Type} (lookup : α → Option β) {rows : List α}
    (found : ∀ r ∈ rows, ∃ b, lookup r = some b) :
    (rows.filterMap fun r => (lookup r).map fun b => (r, b)).map Prod.fst = rows := by
  induction rows with
  | nil => rfl
  | cons r rows ih =>
      obtain ⟨b, hb⟩ := found r (List.mem_cons_self ..)
      simp [hb, ih fun r' hr => found r' (List.mem_cons_of_mem _ hr)]

theorem servedWithin {α β κ : Type} [LinearOrder κ] {key : α → κ} {wanted : α → Prop}
    {parent : Option β} {missing : String} {serve : Nat → Page α}
    (served : Partitioned key wanted pageSize serve) :
    PartitionedWithin parent missing key wanted pageSize fun n => do
      let _ ← respond parent ⟨404, missing⟩
      return serve n := by
  cases parent with
  | none => exact fun _ => rfl
  | some b => exact ⟨serve, fun _ => rfl, served⟩

theorem served_databases (s : Store) (positive : 0 < pageSize) (name : Option String) :
    Partitioned databaseKey
      (fun u => s.databases.lookup u.id = some u.database ∧
        u.allocatedInstances = s.allocationCount u.id ∧
        name.all (icontains u.database.name ·) = true)
      pageSize (s.listDatabases name · pageSize) := by
  apply Partitioned.of_rows positive
  · apply distinct_keys DatabaseUsage.id (fun k => (ofLex (ofLex k).2).2) fun _ => rfl
    rw [List.map_map]
    exact select_keys_nodup s.databases _
  · rw [List.length_map]
  · rintro ⟨id, d, count⟩
    simp only [List.mem_map, usage, DatabaseUsage.mk.injEq, Prod.exists, Table.mem_select]
    constructor
    · rintro ⟨_, _, ⟨hrow, hname⟩, rfl, rfl, rfl⟩
      exact ⟨hrow, rfl, hname⟩
    · rintro ⟨hrow, rfl, hname⟩
      exact ⟨id, d, ⟨hrow, hname⟩, rfl, rfl, rfl⟩

theorem allocatedTo_eq_true {instanceId databaseId : UUID} :
    s.allocatedTo instanceId databaseId = true ↔
      ∃ a, s.allocations.lookup instanceId = some a ∧ a.databaseId = databaseId := by
  simp [allocatedTo, Option.any_eq_true]

theorem served_instances (s : Store) (positive : 0 < pageSize) (application : Option String)
    (databaseId : Option UUID) :
    Partitioned instanceKey
      (fun r => s.instances.lookup r.1 = some r.2 ∧ (∀ a ∈ application, r.2.application = a) ∧
        ∀ id ∈ databaseId, ∃ a, s.allocations.lookup r.1 = some a ∧ a.databaseId = id)
      pageSize (s.listInstances application databaseId · pageSize) := by
  apply served_select (fun k => (ofLex k).2) (fun _ => rfl) positive s.instances
  intro r
  simp only [Bool.and_eq_true, Option.all_eq_true, allocatedTo_eq_true, beq_iff_eq, Option.mem_def]

theorem served_assignments (s : Store) (grounded : ∀ id a, s.assignments.lookup id = some a →
    ∃ t, s.templates.lookup a.templateId = some t) (positive : 0 < pageSize) (instanceId : UUID) :
    let matching := s.assignments.select fun _ a => a.instanceId == instanceId
    Partitioned assignmentKey
      (fun r => s.assignments.lookup r.1.1 = some r.1.2 ∧ r.1.2.instanceId = instanceId ∧
        s.templates.lookup r.1.2.templateId = some r.2)
      pageSize fun n => listPage assignmentKey
        (matching.filterMap fun r => (s.templates.lookup r.2.templateId).map fun t => (r, t))
        matching.length n pageSize := by
  intro matching
  have hfound : ∀ r ∈ matching, ∃ t, s.templates.lookup r.2.templateId = some t := by
    rintro ⟨id, a⟩ hr
    exact grounded id a (Table.mem_select.mp hr).1
  have hfst := map_fst_join (fun r : UUID × TemplateAssignment =>
    s.templates.lookup r.2.templateId) hfound
  apply Partitioned.of_rows positive
  · apply distinct_keys (fun r => r.1.1) (fun k => (ofLex (ofLex (ofLex k).2).2).2)
      fun _ => rfl
    have hids := congrArg (List.map Prod.fst) hfst
    rw [List.map_map] at hids
    exact hids ▸ select_keys_nodup s.assignments _
  · have hlength := congrArg List.length hfst
    rw [List.length_map] at hlength
    exact hlength.symm
  · rintro ⟨⟨id, a⟩, t⟩
    simp only [List.mem_filterMap, Option.map_eq_some_iff, Prod.mk.injEq, Prod.exists, matching,
      Table.mem_select, beq_iff_eq]
    constructor
    · rintro ⟨_, _, ⟨hrow, hinstance⟩, _, ht, ⟨rfl, rfl⟩, rfl⟩
      exact ⟨hrow, hinstance, ht⟩
    · rintro ⟨hrow, hinstance, ht⟩
      exact ⟨id, a, ⟨hrow, hinstance⟩, t, ht, ⟨rfl, rfl⟩, rfl⟩

end Store

open Store in
theorem ListsServed.of_grounded {s : Store} {pageSize : Nat} (grounded : Grounded s)
    (positive : 0 < pageSize) : ListsServed s pageSize where
  databases := s.served_databases positive
  instances := s.served_instances positive
  databaseInstances := by
    intro id
    have hserved := s.served_instances positive none (some id)
    simp only [Option.mem_def, reduceCtorEq, false_implies, implies_true, true_and,
      Option.some.injEq, forall_eq'] at hserved
    exact servedWithin hserved
  members := by
    intro id
    apply servedWithin
    apply served_select (fun k => (ofLex k).2) (fun _ => rfl) positive s.members
    intro r
    rw [beq_iff_eq]
  templates := by
    intro displayName
    exact served_select (fun k => (ofLex (ofLex (ofLex k).2).2).2) (fun _ => rfl) positive
      s.templates _ fun _ => Iff.rfl
  images := by
    intro id
    apply servedWithin
    apply served_select (fun k => (ofLex (ofLex (ofLex k).2).2).2) (fun _ => rfl) positive s.images
    intro r
    rw [beq_iff_eq]
  parameters := by
    intro id
    apply servedWithin
    apply served_select (fun k => (ofLex (ofLex k).2).2) (fun _ => rfl) positive s.parameters
    intro r
    rw [beq_iff_eq]
  assignments := by
    intro id
    apply servedWithin
    exact s.served_assignments (fun id a ha => (grounded.assignments id a ha).2.2) positive id
  workspaces := by
    intro query
    exact served_select (fun k => (ofLex (ofLex (ofLex k).2).2).2) (fun _ => rfl) positive
      s.workspaces _ fun _ => Iff.rfl

/-- In every state each list route serves every row it should exactly once over
its pages, in one strict order, and counts them right. -/
theorem lists_are_partitioned (steps : List Step) (pageSize : Nat) (positive : 0 < pageSize) :
    ListsServed (run steps).world.store pageSize :=
  .of_grounded (run_reaches steps).sound.grounded positive

def listing : List Step :=
  ["beta", "Gamma", "alpha"].map fun name => .change (.request (.createTemplate name {
    displayName := name, gitUrl := "https://git.example/t.git", sourcePath := ""
    branch := "main", modules := [] }))

theorem listing_is_partitioned :
    (((run listing).world.store.listTemplates none 1 2).items.map fun r => r.2.name) =
      ["alpha", "beta"] ∧
    (((run listing).world.store.listTemplates none 2 2).items.map fun r => r.2.name) = ["Gamma"] ∧
    ListsServed (run listing).world.store 2 :=
  ⟨by decide +kernel, by decide +kernel, lists_are_partitioned listing 2 (by decide)⟩

end CoderManager
