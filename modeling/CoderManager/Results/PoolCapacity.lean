import CoderManager.Results.PoolSessions

/-!
# The database pool is never overbooked

A creation counts the allocations of the databases it holds, and whoever else adds an
allocation or changes a limit needs the same locks. A creation that finds no database
holds those of its snapshot that are left, and they are full.
-/
namespace CoderManager
open Tables Locks Store

namespace Session

/-- The databases the locking query of a creation sees. -/
def visible : Session → Option (List UUID)
  | .lockingPool _ _ visible _ _ => some visible
  | .countingPool _ _ visible _ => some visible
  | _ => none

variable {s : Store} {session next : Session}

theorem visible_next {seen : List UUID} (seen_next : next.visible = some seen)
    (moves : session.statement s = some (.read next) ∨
      ∃ row, session.statement s = some (.lock row next)) : session.visible = some seen := by
  cases session with
  | lockingPool application slug visible todo locked =>
      cases todo with
      | nil =>
          cases locked with
          | nil => rcases moves with h | ⟨row, h⟩ <;> cases h
          | cons r locked =>
              rcases moves with h | ⟨row, h⟩
              · cases h
                exact seen_next
              · cases h
      | cons id todo =>
          cases hd : s.databases.lookup id with
          | none =>
              simp only [statement, hd, Option.some.injEq, Statement.read.injEq, reduceCtorEq,
                exists_false, or_false] at moves
              subst moves
              exact seen_next
          | some d =>
              simp only [statement, hd, Option.some.injEq, Statement.lock.injEq, reduceCtorEq,
                false_or] at moves
              obtain ⟨row, -, rfl⟩ := moves
              exact seen_next
  | countingPool application slug visible locked =>
      rcases moves with h | ⟨row, h⟩ <;> simp only [statement] at h <;> split at h <;> cases h
      cases seen_next
  | placing application slug id =>
      rcases moves with h | ⟨row, h⟩ <;> simp only [statement, conclude] at h <;> split at h <;>
        cases h
  | lockingDatabase id change =>
      rcases moves with h | ⟨row, h⟩ <;> simp only [statement] at h <;> split at h <;> cases h
      cases seen_next
  | counting id change =>
      cases change <;> rcases moves with h | ⟨row, h⟩ <;> simp only [statement] at h <;>
        split at h <;> cases h
      · cases seen_next
      · cases seen_next
  | changing id change =>
      cases change with
      | update payload password =>
          rcases moves with h | ⟨row, h⟩ <;> simp only [statement, conclude] at h <;> split at h <;>
            cases h
      | delete => rcases moves with h | ⟨row, h⟩ <;> cases h
  | lockingJob claim =>
      rcases moves with h | ⟨row, h⟩ <;> simp only [statement] at h <;> split at h <;> cases h
      cases seen_next
  | lockingResource claim job =>
      have hnext : next = .removing claim := by
        rcases moves with h | ⟨row, h⟩ <;> simp only [statement] at h <;> split at h
        · split at h
          · split at h <;> cases h
          · cases h
            rfl
        · cases h
        · split at h
          · split at h <;> cases h
            rfl
          · cases h
        · cases h
      subst hnext
      cases seen_next
  | removing claim =>
      rcases moves with h | ⟨row, h⟩ <;> simp only [statement] at h <;> split at h <;> cases h
  | ended outcome => rcases moves with h | ⟨row, h⟩ <;> cases h

theorem placeInstance_error {application slug : String} {databaseId : UUID} {e : RequestError}
    (h : s.placeInstance application slug databaseId = .error e) : e = .instanceAlreadyExists := by
  simp only [placeInstance, require] at h
  split at h
  · split at h
    · cases h
    · cases h
      rfl
  · cases h
    rfl

theorem storeDatabase_error {databaseId : UUID} {payload : DatabaseFields}
    {password : Option String} {e : RequestError}
    (h : s.storeDatabase databaseId payload password = .error e) :
    e ≠ .instanceDatabaseUnavailable := by
  simp only [storeDatabase, present, require] at h
  split at h
  · split at h <;> cases h
    decide
  · cases h
    decide

/-- A creation runs out of databases at two places only. -/
theorem unavailable_cases
    (h : session.statement s = some (.rollback .instanceDatabaseUnavailable)) :
    (∃ application slug visible, session = .lockingPool application slug visible [] []) ∨
      ∃ application slug visible locked,
        session = .countingPool application slug visible locked ∧ s.placement locked = none := by
  cases session with
  | lockingPool application slug visible todo locked =>
      cases todo with
      | nil =>
          cases locked with
          | nil => exact .inl ⟨application, slug, visible, rfl⟩
          | cons r locked => cases h
      | cons id todo => cases hd : s.databases.lookup id <;> simp [statement, hd] at h
  | countingPool application slug visible locked =>
      simp only [statement] at h
      split at h
      · rename_i hnone
        exact .inr ⟨application, slug, visible, locked, rfl, hnone⟩
      · cases h
  | placing application slug id =>
      simp only [statement, conclude, Option.some.injEq] at h
      split at h
      · cases h
      · rename_i e he
        cases h
        cases placeInstance_error he
  | lockingDatabase id change =>
      simp only [statement] at h
      split at h <;> cases h
  | counting id change =>
      cases change <;> simp only [statement] at h <;> split at h <;> cases h
  | changing id change =>
      cases change with
      | update payload password =>
          simp only [statement, conclude, Option.some.injEq] at h
          split at h
          · cases h
          · rename_i e he
            cases h
            exact absurd rfl (storeDatabase_error he)
      | delete => cases h
  | lockingJob claim =>
      simp only [statement] at h
      split at h <;> cases h
  | lockingResource claim job =>
      simp only [statement] at h
      split at h
      · split at h
        · split at h <;> cases h
        · cases h
      · cases h
  | removing claim =>
      simp only [statement] at h
      split at h <;> cases h
  | ended outcome => cases h

end Session

namespace Server
variable {p p' : Server}

def Remembers (p : Server) : Prop :=
  ∀ n session seen, p.sessions n = some session → session.visible = some seen →
    ∃ q, Reached q ∧ Relation.ReflTransGen Step q p ∧ seen = q.store.poolOrder

theorem Step.session_cases (step : Step p p') {n : Nat} {session : Session}
    (hn : p'.sessions n = some session) :
    p.sessions n = some session ∨ (∃ opening : Opening, session = opening.session p.store) ∨
      (∃ before, p.sessions n = some before ∧
        (before.statement p.store = some (.read session) ∨
          ∃ row, before.statement p.store = some (.lock row session))) ∨
      ∃ outcome, session = .ended outcome := by
  cases step with
  | other leaves => exact .inl hn
  | act label =>
      cases label with
      | begin m opening =>
          cases hm : p.sessions m with
          | some before =>
              simp only [Server.apply, hm] at hn
              exact .inl hn
          | none =>
              simp only [Server.apply, hm, sessions_resume] at hn
              split at hn
              · exact .inr (.inl ⟨opening, (Option.some.inj hn).symm⟩)
              · exact .inl hn
      | advance m =>
          cases hm : p.sessions m with
          | none =>
              simp only [Server.apply, hm] at hn
              exact .inl hn
          | some before =>
              cases hnext : before.statement p.store with
              | none =>
                  simp only [Server.apply, hm, hnext] at hn
                  exact .inl hn
              | some statement =>
                  simp only [Server.apply, hm, hnext] at hn
                  by_cases hnm : n = m
                  · subst hnm
                    cases statement with
                    | lock row next =>
                        simp only [Server.execute] at hn
                        split at hn
                        · simp only [sessions_resume, if_true, Option.some.injEq] at hn
                          subst hn
                          exact .inr (.inr (.inl ⟨before, hm, .inr ⟨row, hnext⟩⟩))
                        · exact .inl hn
                    | read next =>
                        simp only [Server.execute, sessions_resume, if_true,
                          Option.some.injEq] at hn
                        subst hn
                        exact .inr (.inr (.inl ⟨before, hm, .inl hnext⟩))
                    | commit s =>
                        simp only [Server.execute, Server.close, sessions_resume, if_true,
                          Option.some.injEq] at hn
                        exact .inr (.inr (.inr ⟨_, hn.symm⟩))
                    | rollback error =>
                        simp only [Server.execute, Server.close, sessions_resume, if_true,
                          Option.some.injEq] at hn
                        exact .inr (.inr (.inr ⟨_, hn.symm⟩))
                  · left
                    cases statement with
                    | lock row next =>
                        simp only [Server.execute] at hn
                        split at hn
                        · simpa only [sessions_resume, if_neg hnm] using hn
                        · exact hn
                    | read next => simpa only [Server.execute, sessions_resume, if_neg hnm] using hn
                    | commit s =>
                        simpa only [Server.execute, Server.close, sessions_resume, if_neg hnm]
                          using hn
                    | rollback error =>
                        simpa only [Server.execute, Server.close, sessions_resume, if_neg hnm]
                          using hn
      | abort m =>
          cases hm : p.sessions m with
          | none =>
              simp only [Server.apply, hm] at hn
              exact .inl hn
          | some before =>
              simp only [Server.apply, hm] at hn
              split at hn
              · simp only [Server.close, sessions_resume] at hn
                split at hn
                · exact .inr (.inr (.inr ⟨_, (Option.some.inj hn).symm⟩))
                · exact .inl hn
              · exact .inl hn
      | createDatabase payload password =>
          cases hnew : p.store.createDatabase payload password <;>
            simp only [Server.apply, hnew] at hn <;> exact .inl hn

theorem Reached.remembers (h : Reached p) : p.Remembers := by
  induction h with
  | refl => exact fun n session seen hn => nomatch hn
  | @tail p p' hp step ih =>
      intro n session seen hn hseen
      have extend : ∀ {q}, Relation.ReflTransGen Step q p → Relation.ReflTransGen Step q p' :=
        fun hq => hq.tail step
      rcases step.session_cases hn with hsame | ⟨opening, rfl⟩ | ⟨before, hbefore, hmoves⟩ |
        ⟨outcome, rfl⟩
      · obtain ⟨q, hq, hqp, hsnap⟩ := ih n session seen hsame hseen
        exact ⟨q, hq, extend hqp, hsnap⟩
      · refine ⟨p, hp, extend .refl, ?_⟩
        cases opening <;> cases hseen
        rfl
      · have hseen' := Session.visible_next hseen hmoves
        obtain ⟨q, hq, hqp, hsnap⟩ := ih n before seen hbefore hseen'
        exact ⟨q, hq, extend hqp, hsnap⟩
      · cases hseen

/-- A creation that raises holds every database of its snapshot that is still
there, and all of them are full. -/
theorem Safe.unavailable (h : p.Safe) {n : Nat} {session : Session}
    (running : p.sessions n = some session)
    (raises : session.statement p.store = some (.rollback .instanceDatabaseUnavailable)) :
    ∃ seen, session.visible = some seen ∧ ∀ id ∈ seen, p.store.databases.lookup id = none ∨
      ∃ d, p.locks ⟨.database, id⟩ = some n ∧ p.store.databases.lookup id = some d ∧
        p.store.allocationCount id = d.instanceMax := by
  have hsecured := h.secured n session running
  rcases Session.unavailable_cases raises with ⟨application, slug, seen, rfl⟩ |
    ⟨application, slug, seen, locked, rfl, hnone⟩
  · refine ⟨seen, rfl, fun id hid => ?_⟩
    rcases hsecured.passed id hid with htodo | hgone | ⟨d, hd⟩
    · cases htodo
    · exact .inl hgone
    · cases hd
  · refine ⟨seen, rfl, fun id hid => ?_⟩
    rcases hsecured.passed id hid with htodo | hgone | ⟨d, hd⟩
    · cases htodo
    · exact .inl hgone
    · obtain ⟨hheld, hrow⟩ := hsecured.held _ hd
      have hfull : d.instanceMax ≤ p.store.allocationCount id := placement_eq_none hnone _ hd
      have hroom : p.store.allocationCount id ≤ d.instanceMax := h.accounted.capacity id d hrow
      exact .inr ⟨d, hheld, hrow, Nat.le_antisymm hroom hfull⟩

/-- In every state that any interleaving of creations, finalisations and
database requests reaches: no database is overbooked, every instance has its
allocation to a database that exists, and keeps it until it is removed; a
database with an allocation is not deleted; and a creation finds no database
only when those its query saw are gone or full while it holds them. -/
theorem pool_is_never_overbooked (p : Server) (reached : Reached p) :
    (∀ id d, p.store.databases.lookup id = some d →
      p.store.allocationCount id ≤ d.instanceMax) ∧
    (∀ id i, p.store.instances.lookup id = some i → ∃ a d,
      p.store.allocations.lookup id = some a ∧ p.store.databases.lookup a.databaseId = some d) ∧
    (∀ p', Step p p' →
      (∀ id a, p.store.allocations.lookup id = some a →
        p'.store.allocations.lookup id = some a ∨ p'.store.instances.lookup id = none) ∧
      (∀ id d, p.store.databases.lookup id = some d → p'.store.databases.lookup id = none →
        p.store.allocationCount id = 0)) ∧
    (∀ n session, p.sessions n = some session →
      session.statement p.store = some (.rollback .instanceDatabaseUnavailable) →
      ∃ seen, session.visible = some seen ∧
        (∃ q, Reached q ∧ Relation.ReflTransGen Step q p ∧ seen = q.store.poolOrder) ∧
        ∀ id ∈ seen, p.store.databases.lookup id = none ∨
          ∃ d, p.locks ⟨.database, id⟩ = some n ∧ p.store.databases.lookup id = some d ∧
            p.store.allocationCount id = d.instanceMax) := by
  have hsafe := reached.safe
  refine ⟨hsafe.accounted.capacity, ?_, ?_, ?_⟩
  · intro id i hi
    obtain ⟨a, ha⟩ := hsafe.accounted.allocated id i hi
    obtain ⟨-, d, hd⟩ := hsafe.accounted.housed id a ha
    exact ⟨a, d, ha, hd⟩
  · intro p' step
    obtain ⟨-, hevolves⟩ := hsafe.move step
    exact ⟨hevolves.allocations, hevolves.databases⟩
  · intro n session running raises
    obtain ⟨seen, hseen, hfull⟩ := hsafe.unavailable running raises
    exact ⟨seen, hseen, reached.remembers n session seen running hseen, hfull⟩

/-- Two creations over a pool of one place: the first holds the database, the
second waits for it and then finds it full. -/
def lastPlace : Server :=
  [.createDatabase ⟨"db", 1, "host", 5432, "coder", "coder"⟩ "secret",
    .begin 0 (.createInstance "one" "aaaa"), .begin 1 (.createInstance "two" "bbbb"),
    .advance 0, .advance 1, .advance 0, .advance 0, .advance 0,
    .advance 1, .advance 1].foldl Server.apply .empty

theorem lastPlace_is_full :
    (lastPlace.store.allocationCount 0 = 1 ∧ ∃ session, lastPlace.sessions 1 = some session ∧
      session.statement lastPlace.store = some (.rollback .instanceDatabaseUnavailable)) ∧
    ∀ id d, lastPlace.store.databases.lookup id = some d →
      lastPlace.store.allocationCount id ≤ d.instanceMax :=
  ⟨⟨by decide +kernel, _, rfl, rfl⟩, (pool_is_never_overbooked _ (reached_applies _)).1⟩

end Server
end CoderManager
