import CoderManager.Results.PoolBooks

/-!
# What a session knows of the pool

A session is right about the rows it holds until it commits: the others wait for its
locks, and what it has counted can only shrink.
-/
namespace CoderManager
open Tables Locks Store

namespace Server

/-- One step of the server, or any other committed change that leaves the pool
alone. -/
inductive Step : Server → Server → Prop
  | act (p : Server) (label : Label) : Step p (p.apply label)
  | other {p : Server} {s : Store} (leaves : LeavesPool p.store s) : Step p { p with store := s }

/-- The states reached from an empty database. -/
abbrev Reached (p : Server) : Prop := Relation.ReflTransGen Step empty p

theorem reached_applies (labels : List Label) : Reached (labels.foldl Server.apply .empty) := by
  induction labels using List.reverseRecOn with
  | nil => exact .refl
  | append_singleton labels label ih =>
      rw [List.foldl_append]
      exact ih.tail (.act _ label)

end Server

def Holding (s : Store) (locks : Holders LockedRow) (n : Nat) (r : UUID × Database) : Prop :=
  locks ⟨.database, r.1⟩ = some n ∧ s.databases.lookup r.1 = some r.2

/-- A locking query has passed over the databases outside `todo`: it holds
them, or they are gone for good. -/
structure Searched (s : Store) (locks : Holders LockedRow) (n : Nat) (visible todo : List UUID)
    (locked : List (UUID × Database)) : Prop where
  held : ∀ r ∈ locked, Holding s locks n r
  drawn : ∀ id ∈ visible, id < s.nextId
  passed : ∀ id ∈ visible, id ∈ todo ∨ s.databases.lookup id = none ∨ ∃ d, (id, d) ∈ locked

namespace Session

/-- What a session knows about the pool and nobody else can change. -/
def Secured (s : Store) (locks : Holders LockedRow) (n : Nat) : Session → Prop
  | .lockingPool _ _ visible todo locked => Searched s locks n visible todo locked
  | .countingPool _ _ visible locked => Searched s locks n visible [] locked
  | .placing _ _ id => ∃ d, Holding s locks n (id, d) ∧ s.allocationCount id < d.instanceMax
  | .counting id _ => ∃ d, Holding s locks n (id, d)
  | .changing id (.update payload _) =>
      (∃ d, Holding s locks n (id, d)) ∧ s.allocationCount id ≤ payload.instanceMax
  | .changing id .delete => (∃ d, Holding s locks n (id, d)) ∧ s.allocationCount id = 0
  | _ => True

variable {s s' : Store} {locks locks' : Holders LockedRow} {n : Nat}

theorem Secured.holding {r : UUID × Database} (h : Holding s locks n r) (hs : Spares s locks n s')
    (hl : ∀ row, locks row = some n → locks' row = some n) : Holding s' locks' n r :=
  ⟨hl _ h.1, (hs r.1 r.2 h.1 h.2).1⟩

theorem Secured.searched {visible todo : List UUID} {locked : List (UUID × Database)}
    (h : Searched s locks n visible todo locked) (hs : Spares s locks n s') (he : Evolves s s')
    (hl : ∀ row, locks row = some n → locks' row = some n) :
    Searched s' locks' n visible todo locked where
  held := fun r hr => holding (h.held r hr) hs hl
  drawn := fun id hid => Nat.lt_of_lt_of_le (h.drawn id hid) he.nextId
  passed := by
    intro id hid
    rcases h.passed id hid with htodo | hgone | hlocked
    · exact .inl htodo
    · exact .inr (.inl (he.gone id (h.drawn id hid) hgone))
    · exact .inr (.inr hlocked)

/-- What a session knows survives the steps of the others. -/
theorem Secured.spared {session : Session} (h : session.Secured s locks n)
    (hs : Spares s locks n s') (he : Evolves s s')
    (hl : ∀ row, locks row = some n → locks' row = some n) : session.Secured s' locks' n := by
  cases session with
  | lockingPool application slug visible todo locked => exact searched h hs he hl
  | countingPool application slug visible locked => exact searched h hs he hl
  | placing application slug id =>
      obtain ⟨d, hd, hroom⟩ := h
      exact ⟨d, holding hd hs hl, Nat.lt_of_le_of_lt (hs id d hd.1 hd.2).2 hroom⟩
  | counting id change =>
      obtain ⟨d, hd⟩ := h
      exact ⟨d, holding hd hs hl⟩
  | changing id change =>
      cases change with
      | update payload password =>
          obtain ⟨⟨d, hd⟩, hroom⟩ := h
          exact ⟨⟨d, holding hd hs hl⟩, Nat.le_trans (hs id d hd.1 hd.2).2 hroom⟩
      | delete =>
          obtain ⟨⟨d, hd⟩, hunused⟩ := h
          have hle := (hs id d hd.1 hd.2).2
          rw [hunused] at hle
          exact ⟨⟨d, holding hd hs hl⟩, Nat.le_zero.mp hle⟩
  | lockingDatabase | lockingJob | lockingResource | removing | ended => trivial

theorem Secured.read {session next : Session} (h : session.Secured s locks n)
    (reads : session.statement s = some (.read next)) : next.Secured s locks n := by
  cases session with
  | lockingPool application slug visible todo locked =>
      cases todo with
      | nil =>
          cases locked with
          | nil => cases reads
          | cons r locked =>
              cases reads
              exact h
      | cons id todo =>
          cases hd : s.databases.lookup id with
          | none =>
              simp only [statement, hd, Option.some.injEq, Statement.read.injEq] at reads
              subst reads
              refine ⟨h.held, h.drawn, fun id' hid' => ?_⟩
              rcases h.passed id' hid' with htodo | hpassed
              · rcases List.mem_cons.mp htodo with rfl | htodo
                · exact .inr (.inl hd)
                · exact .inl htodo
              · exact .inr hpassed
          | some d => simp [statement, hd] at reads
  | countingPool application slug visible locked =>
      simp only [statement] at reads
      split at reads
      · cases reads
      · rename_i databaseId d hplaced
        cases reads
        obtain ⟨hmem, hroom⟩ := placement_eq_some hplaced
        exact ⟨d, h.held _ hmem, hroom⟩
  | placing application slug id =>
      simp only [statement, conclude] at reads
      split at reads <;> cases reads
  | lockingDatabase id change =>
      simp only [statement] at reads
      split at reads <;> cases reads
  | counting id change =>
      cases change with
      | update payload password =>
          simp only [statement] at reads
          split at reads
          · cases reads
          · rename_i hroom
            cases reads
            exact ⟨h, Nat.not_lt.mp hroom⟩
      | delete =>
          simp only [statement] at reads
          split at reads
          · cases reads
          · rename_i hunused
            cases reads
            rw [Bool.not_eq_true, Table.any_eq_false] at hunused
            refine ⟨h, allocationCount_eq_zero.mpr fun k a ha => ?_⟩
            simpa using hunused k a ha
  | changing id change =>
      cases change with
      | update payload password =>
          simp only [statement, conclude] at reads
          split at reads <;> cases reads
      | delete => cases reads
  | lockingJob claim =>
      simp only [statement] at reads
      split at reads <;> cases reads
  | lockingResource claim job =>
      simp only [statement] at reads
      split at reads
      · split at reads
        · split at reads <;> cases reads
        · cases reads
          trivial
      · cases reads
  | removing claim =>
      simp only [statement] at reads
      split at reads <;> cases reads
  | ended outcome => cases reads

theorem Secured.locked {session next : Session} {row : LockedRow} (h : session.Secured s locks n)
    (locking : session.statement s = some (.lock row next)) :
    next.Secured s (locks.take row n) n := by
  have hspares : Spares s locks n s := fun id d _ hd => ⟨hd, Nat.le_refl _⟩
  have htake : ∀ row', locks row' = some n → locks.take row n row' = some n :=
    fun _ => Holders.take_own
  cases session with
  | lockingPool application slug visible todo locked =>
      cases todo with
      | nil => cases locked <;> cases locking
      | cons id todo =>
          cases hd : s.databases.lookup id with
          | none => simp [statement, hd] at locking
          | some d =>
              simp only [statement, hd, Option.some.injEq, Statement.lock.injEq] at locking
              obtain ⟨rfl, rfl⟩ := locking
              have h' := searched h hspares (.refl s) htake
              constructor
              case held =>
                intro r hr
                rcases List.mem_append.mp hr with hr | hr
                · exact h'.held r hr
                · rw [List.mem_singleton.mp hr]
                  exact ⟨Holders.take_self, hd⟩
              case drawn => exact h'.drawn
              case passed =>
                intro id' hid'
                rcases h'.passed id' hid' with htodo | hgone | ⟨d', hd'⟩
                · rcases List.mem_cons.mp htodo with rfl | htodo
                  · exact .inr (.inr ⟨d, by simp⟩)
                  · exact .inl htodo
                · exact .inr (.inl hgone)
                · exact .inr (.inr ⟨d', by simp [hd']⟩)
  | countingPool application slug visible locked =>
      simp only [statement] at locking
      split at locking <;> cases locking
  | placing application slug id =>
      simp only [statement, conclude] at locking
      split at locking <;> cases locking
  | lockingDatabase id change =>
      simp only [statement] at locking
      split at locking
      · cases locking
      · rename_i d hd
        cases locking
        exact ⟨d, Holders.take_self, hd⟩
  | counting id change =>
      cases change <;> simp only [statement] at locking <;> split at locking <;> cases locking
  | changing id change =>
      cases change with
      | update payload password =>
          simp only [statement, conclude] at locking
          split at locking <;> cases locking
      | delete => cases locking
  | lockingJob claim =>
      simp only [statement] at locking
      split at locking <;> cases locking
      trivial
  | lockingResource claim job =>
      simp only [statement] at locking
      split at locking
      · split at locking
        · split at locking <;> cases locking
          trivial
        · cases locking
      · cases locking
  | removing claim =>
      simp only [statement] at locking
      split at locking <;> cases locking
  | ended outcome => cases locking

theorem conclude_commit {result : Except RequestError (UUID × Store)}
    (h : conclude result = .commit s') : ∃ id, result = .ok (id, s') := by
  cases result with
  | error e => cases h
  | ok r =>
      cases h
      exact ⟨r.1, rfl⟩

theorem Secured.committed {session : Session} (hs : Accounted s) (h : session.Secured s locks n)
    (commits : session.statement s = some (.commit s')) : Committing s locks n s' := by
  have hsame : Committing s locks n s := .of_leavesPool hs (.refl s)
  cases session with
  | lockingPool application slug visible todo locked =>
      cases todo with
      | nil => cases locked <;> cases commits
      | cons id todo => cases hd : s.databases.lookup id <;> simp [statement, hd] at commits
  | countingPool application slug visible locked =>
      simp only [statement] at commits
      split at commits <;> cases commits
  | placing application slug id =>
      obtain ⟨d, ⟨hheld, hrow⟩, hroom⟩ := h
      obtain ⟨id', hplaced⟩ := conclude_commit (Option.some.inj commits)
      exact .placeInstance hs hheld hrow hroom hplaced
  | lockingDatabase id change =>
      simp only [statement] at commits
      split at commits <;> cases commits
  | counting id change =>
      cases change <;> simp only [statement] at commits <;> split at commits <;> cases commits
  | changing id change =>
      cases change with
      | update payload password =>
          obtain ⟨⟨d, hheld, hrow⟩, hroom⟩ := h
          obtain ⟨id', hstored⟩ := conclude_commit (Option.some.inj commits)
          simp only [storeDatabase, bind_eq_ok, pure_eq_ok, present_eq_ok, require_eq_ok,
            Prod.mk.injEq] at hstored
          obtain ⟨d', -, -, -, -, rfl⟩ := hstored
          exact .putDatabase hs hheld hrow hroom
      | delete =>
          obtain ⟨⟨d, hheld, -⟩, hunused⟩ := h
          cases commits
          exact .eraseDatabase hs hheld hunused
  | lockingJob claim =>
      simp only [statement] at commits
      split at commits <;> cases commits
      exact hsame
  | lockingResource claim job =>
      simp only [statement] at commits
      split at commits
      · split at commits
        · split at commits <;> cases commits
          exact hsame
        · cases commits
      · cases commits
        exact hsame
  | removing claim =>
      simp only [statement, removeLocalConfiguration] at commits
      split at commits
      · rename_i removed hremoved
        cases commits
        split at hremoved
        · cases hremoved
          exact hsame
        · split at hremoved
          · cases hremoved
            exact hsame
          · cases hremoved
            exact .removeInstance hs _ _ _
      · cases commits
        exact hsame
  | ended outcome => cases commits

end Session

namespace Server

/-- The books are in order and every session is right about what it holds. -/
structure Safe (p : Server) : Prop where
  accounted : Accounted p.store
  secured : ∀ n session, p.sessions n = some session → session.Secured p.store p.locks n

variable {p p' : Server} {n : Nat}

theorem sessions_resume (p : Server) (n m : Nat) (session : Session) :
    (p.resume n session).sessions m = if m = n then some session else p.sessions m := rfl

theorem Safe.empty : Safe empty where
  accounted := Accounted.empty
  secured := fun _ _ h => nomatch h

/-- A step of session `n`: the others keep their sessions and their locks, and
what it commits spares the rows they hold. -/
theorem Safe.step (h : p.Safe) (accounted : Accounted p'.store) (evolves : Evolves p.store p'.store)
    (others : ∀ m, m ≠ n → p'.sessions m = p.sessions m ∧ Spares p.store p.locks m p'.store ∧
      ∀ row, p.locks row = some m → p'.locks row = some m)
    (own : ∀ session, p'.sessions n = some session → session.Secured p'.store p'.locks n) :
    p'.Safe := by
  refine ⟨accounted, fun m session hm => ?_⟩
  by_cases hmn : m = n
  · subst hmn
    exact own session hm
  · obtain ⟨hsession, hspares, hlocks⟩ := others m hmn
    rw [hsession] at hm
    exact (h.secured m session hm).spared hspares evolves hlocks

theorem spares_refl (s : Store) (locks : Holders LockedRow) (m : Nat) : Spares s locks m s :=
  fun _ _ _ hd => ⟨hd, Nat.le_refl _⟩

theorem Safe.resume {session : Session} (h : p.Safe)
    (secured : session.Secured p.store p.locks n) : (p.resume n session).Safe := by
  refine h.step (n := n) h.accounted (.refl _) ?_ ?_
  · intro m hm
    exact ⟨by simp [sessions_resume, hm], spares_refl _ _ _, fun _ hrow => hrow⟩
  · intro session' hsession
    rw [sessions_resume, if_pos rfl] at hsession
    cases hsession
    exact secured

theorem Safe.close {outcome : SessionEnd} {s : Store} (h : p.Safe)
    (committing : Committing p.store p.locks n s) : ({ p with store := s }.close n outcome).Safe := by
  apply h.step (n := n) committing.accounted committing.evolves
  · intro m hm
    refine ⟨by simp [Server.close, sessions_resume, hm], committing.spares m hm, fun row hrow => ?_⟩
    exact Holders.release_other hrow hm
  · intro session hsession
    rw [Server.close, sessions_resume, if_pos rfl] at hsession
    cases hsession
    trivial

theorem Safe.execute {session : Session} {statement : Statement} (h : p.Safe)
    (running : p.sessions n = some session)
    (next : session.statement p.store = some statement) :
    (p.execute n statement).Safe ∧ Evolves p.store (p.execute n statement).store := by
  have hsecured := h.secured n session running
  cases statement with
  | lock row session' =>
      simp only [Server.execute]
      split
      · rename_i hfree
        refine ⟨?_, Evolves.refl p.store⟩
        refine h.step (n := n) h.accounted (.refl _) ?_ ?_
        · intro m hm
          refine ⟨by simp [sessions_resume, hm], spares_refl _ _ _, fun row' hrow => ?_⟩
          exact Holders.take_other hrow hfree hm
        · intro session'' hsession
          rw [sessions_resume, if_pos rfl] at hsession
          cases hsession
          exact hsecured.locked next
      · exact ⟨h, .refl _⟩
  | read session' => exact ⟨h.resume (hsecured.read next), .refl _⟩
  | commit s =>
      have hcommit := hsecured.committed h.accounted next
      exact ⟨h.close hcommit, hcommit.evolves⟩
  | rollback error =>
      have hsame : Committing p.store p.locks n p.store := .of_leavesPool h.accounted (.refl _)
      exact ⟨h.close hsame, .refl _⟩

theorem secured_opening (h : p.Safe) (opening : Opening) :
    (opening.session p.store).Secured p.store p.locks n := by
  cases opening with
  | createInstance application slug =>
      refine ⟨fun r hr => (nomatch hr), fun id hid => ?_, fun id hid => .inl hid⟩
      obtain ⟨⟨id', d⟩, hmem, rfl⟩ := List.mem_map.mp hid
      rw [List.mem_insertionSort, Table.mem_rows] at hmem
      exact h.accounted.databasesDrawn id' d hmem
  | updateDatabase | deleteDatabase | removeLocalConfiguration => trivial

theorem Safe.insertDatabase (h : p.Safe) (d : Database) :
    let s := { p.store with
      nextId := p.store.nextId + 1, databases := p.store.databases.insert p.store.nextId d }
    Safe { p with store := s } ∧ Evolves p.store s := by
  intro s
  have hcommit : ∀ m, Committing p.store p.locks m s := fun m => .insertDatabase h.accounted
  refine ⟨⟨(hcommit 0).accounted, fun m session hm => ?_⟩, (hcommit 0).evolves⟩
  have hspares := (hcommit (m + 1)).spares m (Nat.ne_of_lt (Nat.lt_succ_self m))
  exact (h.secured m session hm).spared hspares (hcommit 0).evolves fun _ hrow => hrow

theorem Safe.apply (h : p.Safe) (label : Label) :
    (p.apply label).Safe ∧ Evolves p.store (p.apply label).store := by
  have hkeep : p.Safe ∧ Evolves p.store p.store := ⟨h, .refl _⟩
  cases label with
  | begin n opening =>
      cases hn : p.sessions n with
      | none =>
          simp only [Server.apply, hn]
          exact ⟨h.resume (secured_opening h opening), Evolves.refl p.store⟩
      | some session => simpa only [Server.apply, hn] using hkeep
  | advance n =>
      cases hn : p.sessions n with
      | none => simpa only [Server.apply, hn] using hkeep
      | some session =>
          cases hnext : session.statement p.store with
          | none => simpa only [Server.apply, hn, hnext] using hkeep
          | some statement => simpa only [Server.apply, hn, hnext] using h.execute hn hnext
  | abort n =>
      cases hn : p.sessions n with
      | none => simpa only [Server.apply, hn] using hkeep
      | some session =>
          simp only [Server.apply, hn]
          split
          · exact ⟨h.close (.of_leavesPool h.accounted (.refl _)), Evolves.refl p.store⟩
          · exact hkeep
  | createDatabase payload password =>
      cases hnew : p.store.createDatabase payload password with
      | error e => simpa only [Server.apply, hnew] using hkeep
      | ok r =>
          simp only [Server.apply, hnew]
          simp only [Store.createDatabase, bind_eq_ok, pure_eq_ok, require_eq_ok, drawId] at hnew
          obtain ⟨-, -, rfl⟩ := hnew
          exact h.insertDatabase _

theorem Safe.move (h : p.Safe) (step : Step p p') : p'.Safe ∧ Evolves p.store p'.store := by
  cases step with
  | act label => exact h.apply label
  | other leaves =>
      refine ⟨⟨h.accounted.leavesPool leaves, fun m session hm => ?_⟩, .leavesPool leaves⟩
      exact (h.secured m session hm).spared (.leavesPool leaves _ _) (.leavesPool leaves)
        fun _ hrow => hrow

theorem Reached.safe (h : Reached p) : p.Safe := by
  induction h with
  | refl => exact Safe.empty
  | tail _ step ih => exact (ih.move step).1

end Server

end CoderManager
