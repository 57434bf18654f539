import CoderManager.Lib.Locks
import CoderManager.Repositories.Instances
import CoderManager.Tasks.InstanceTransactions

/-!
# The database pool, one statement at a time

A request or a worker step is a session that executes its statements in turn
and commits at the end. Each statement sees what is committed when it runs; a
row lock is held until the session ends, and a statement that needs a row held
by another session does not run. The sessions here are those that read or write
the database pool.
-/
namespace CoderManager
open Tables Locks

inductive RowKind where
  | database
  | job
  | «instance»
  | template
  | templateAssignment
  | templateDeployment
  | workspace
  | member
  deriving DecidableEq, Repr

def ResourceType.rowKind : ResourceType → RowKind
  | .instance => .instance
  | .template => .template
  | .templateAssignment => .templateAssignment
  | .workspace => .workspace

structure LockedRow where
  kind : RowKind
  id : UUID
  deriving DecidableEq, Repr

namespace Store

/-- The database `InstanceRepository.create` picks among the rows it locked. -/
def placement (s : Store) (databases : List (UUID × Database)) : Option (UUID × Database) :=
  (databases.filter fun r => s.allocationCount r.1 < r.2.instanceMax).foldl
    (fun best d => match best with
      | none => some d
      | some b => if s.lessUtilized b d then some b else some d) none

def placeInstance (s : Store) (application slug : String) (databaseId : UUID) :
    Except RequestError (UUID × Store) := do
  require (!s.instances.any fun _ i => i.slug == slug) .instanceAlreadyExists
  require (!s.instances.any fun _ i => i.application == application) .instanceAlreadyExists
  let (instanceId, s) := s.drawId
  let (jobId, s) := s.addJobExecution .instanceCreate StepName.instanceCreateStep01.task
    (some .instance) (some instanceId) .instanceCreateStep01
  return (instanceId, { s with
    instances := s.instances.insert instanceId {
      action := .creating, status := .pending, jobId := some jobId
      step := some .instanceCreateStep01, application, slug, state := .stopped
      passwordEnc := none, passwordCandidateEnc := none, argocdApplicationName := none }
    allocations := s.allocations.insert instanceId {
      databaseId, schemaName := "coder_" ++ toString instanceId } })

/-- Executed without interruption, the statements of a creation are the request. -/
theorem createInstance_eq (s : Store) (application slug : String) :
    s.createInstance application slug = (do
      let (databaseId, _) ← present (s.placement s.databases.rows) .instanceDatabaseUnavailable
      s.placeInstance application slug databaseId) := rfl

/-- The assignments of `DatabaseRepository.update` and its commit. -/
def storeDatabase (s : Store) (databaseId : UUID) (payload : DatabaseFields)
    (password : Option String) : Except RequestError (UUID × Store) := do
  let d ← present (s.databases.lookup databaseId) .databaseNotFound
  require (!s.databaseNameTaken databaseId payload.name) .databaseAlreadyExists
  return (databaseId, { s with databases := s.databases.insert databaseId {
    name := payload.name, instanceMax := payload.instanceMax, host := payload.host
    port := payload.port, databaseName := payload.databaseName, username := payload.username
    passwordEnc := match password with
      | none => d.passwordEnc
      | some password => .encrypt password databaseId } })

/-- Executed without interruption, the statements of an update are the request. -/
theorem updateDatabase_eq (s : Store) (databaseId : UUID) (payload : DatabaseFields)
    (password : Option String) :
    s.updateDatabase databaseId payload password = (do
      let _ ← present (s.databases.lookup databaseId) .databaseNotFound
      require (s.allocationCount databaseId ≤ payload.instanceMax) .databaseCapacityConflict
      s.storeDatabase databaseId payload password) := by
  unfold updateDatabase storeDatabase
  cases s.databases.lookup databaseId <;> rfl

/-- The order in which a creation locks the pool. -/
def poolOrder (s : Store) : List UUID :=
  (s.databases.rows.insertionSort fun a b =>
    if a.2.name.toLower ≠ b.2.name.toLower then a.2.name.toLower < b.2.name.toLower
    else if a.2.name ≠ b.2.name then a.2.name < b.2.name
    else a.1 ≤ b.1).map Prod.fst

end Store

/-- What a database request does with the row it locked. -/
inductive DatabaseChange where
  | update (payload : DatabaseFields) (password : Option String)
  | delete

inductive SessionEnd where
  | committed
  | raised (error : RequestError)
  | aborted

/-- The statement a session executes next, with what it has read so far. -/
inductive Session where
  /-- `InstanceRepository.create` inside its locking query: `visible` is the
  snapshot of the query, `todo` what it has not locked yet. -/
  | lockingPool (application slug : String) (visible todo : List UUID)
      (locked : List (UUID × Database))
  | countingPool (application slug : String) (visible : List UUID)
      (locked : List (UUID × Database))
  | placing (application slug : String) (databaseId : UUID)
  /-- `DatabaseRepository.update` and `delete`. -/
  | lockingDatabase (databaseId : UUID) (change : DatabaseChange)
  | counting (databaseId : UUID) (change : DatabaseChange)
  | changing (databaseId : UUID) (change : DatabaseChange)
  /-- `step_04_remove_local_configuration`, from `owned_execution` on. -/
  | lockingJob (claim : ExecutionClaim)
  | lockingResource (claim : ExecutionClaim) (job : JobExecution)
  | removing (claim : ExecutionClaim)
  | ended (outcome : SessionEnd)

/-- What one statement does to its own session. -/
inductive Statement where
  | lock (row : LockedRow) (next : Session)
  | read (next : Session)
  | commit (s : Store)
  | rollback (error : RequestError)

namespace Session

/-- Commit what a request staged, or raise. -/
def conclude : Except RequestError (UUID × Store) → Statement
  | .ok (_, s) => .commit s
  | .error e => .rollback e

/-- The next statement over the committed rows. A row that is gone is not
locked: the locking query of a creation passes over it, the others raise. -/
def statement (s : Store) : Session → Option Statement
  | .lockingPool application slug visible (id :: todo) locked =>
      match s.databases.lookup id with
      | none => some (.read (.lockingPool application slug visible todo locked))
      | some d => some (.lock ⟨.database, id⟩
          (.lockingPool application slug visible todo (locked ++ [(id, d)])))
  | .lockingPool _ _ _ [] [] => some (.rollback .instanceDatabaseUnavailable)
  | .lockingPool application slug visible [] (r :: locked) =>
      some (.read (.countingPool application slug visible (r :: locked)))
  | .countingPool application slug _ locked =>
      match s.placement locked with
      | none => some (.rollback .instanceDatabaseUnavailable)
      | some (databaseId, _) => some (.read (.placing application slug databaseId))
  | .placing application slug databaseId =>
      some (conclude (s.placeInstance application slug databaseId))
  | .lockingDatabase databaseId change =>
      match s.databases.lookup databaseId with
      | none => some (.rollback .databaseNotFound)
      | some _ => some (.lock ⟨.database, databaseId⟩ (.counting databaseId change))
  | .counting databaseId (.update payload password) =>
      if payload.instanceMax < s.allocationCount databaseId then
        some (.rollback .databaseCapacityConflict)
      else some (.read (.changing databaseId (.update payload password)))
  | .counting databaseId .delete =>
      if s.allocations.any fun _ a => a.databaseId == databaseId then
        some (.rollback .databaseInUse)
      else some (.read (.changing databaseId .delete))
  | .changing databaseId (.update payload password) =>
      some (conclude (s.storeDatabase databaseId payload password))
  | .changing databaseId .delete =>
      some (.commit { s with databases := s.databases.erase databaseId })
  | .lockingJob claim =>
      match s.jobs.lookup claim.jobId with
      | none => some (.commit s)
      | some job => some (.lock ⟨.job, claim.jobId⟩ (.lockingResource claim job))
  | .lockingResource claim job =>
      if job.taskName = claim.taskName ∧ job.step = claim.step ∧ job.attempt = claim.attempt ∧
          job.status = .running then
        match job.resourceType, job.resourceId with
        | some type, some id =>
            if (s.lifecycle type id).isSome then
              some (.lock ⟨type.rowKind, id⟩ (.removing claim))
            else some (.commit s)
        | _, _ => some (.read (.removing claim))
      else some (.commit s)
  | .removing claim =>
      match s.removeLocalConfiguration claim with
      | .ok (_, s) => some (.commit s)
      | .error _ => some (.commit s)
  | .ended _ => none

end Session

/-- The transactions that open a session. -/
inductive Opening where
  | createInstance (application slug : String)
  | updateDatabase (databaseId : UUID) (payload : DatabaseFields) (password : Option String)
  | deleteDatabase (databaseId : UUID)
  | removeLocalConfiguration (claim : ExecutionClaim)

def Opening.session (s : Store) : Opening → Session
  | .createInstance application slug =>
      .lockingPool application slug s.poolOrder s.poolOrder []
  | .updateDatabase databaseId payload password =>
      .lockingDatabase databaseId (.update payload password)
  | .deleteDatabase databaseId => .lockingDatabase databaseId .delete
  | .removeLocalConfiguration claim => .lockingJob claim

/-- The committed rows, who holds which row, and the sessions. -/
structure Server where
  store : Store
  locks : Holders LockedRow
  sessions : Nat → Option Session

namespace Server

def empty : Server := ⟨.empty, fun _ => none, fun _ => none⟩

def resume (p : Server) (n : Nat) (session : Session) : Server :=
  { p with sessions := fun m => if m = n then some session else p.sessions m }

def close (p : Server) (n : Nat) (outcome : SessionEnd) : Server :=
  { p with locks := p.locks.release n }.resume n (.ended outcome)

def execute (p : Server) (n : Nat) : Statement → Server
  | .lock row next =>
      if p.locks.isFree row n then { p with locks := p.locks.take row n }.resume n next else p
  | .read next => p.resume n next
  | .commit s => { p with store := s }.close n .committed
  | .rollback error => p.close n (.raised error)

inductive Label where
  | begin (n : Nat) (opening : Opening)
  | advance (n : Nat)
  | abort (n : Nat)
  /-- `DatabaseRepository.create` reads no row and locks none. -/
  | createDatabase (payload : DatabaseFields) (password : String)

/-- One step of the server; a step that cannot be made changes nothing. -/
def apply (p : Server) : Label → Server
  | .begin n opening =>
      match p.sessions n with
      | none => p.resume n (opening.session p.store)
      | some _ => p
  | .advance n =>
      match p.sessions n with
      | none => p
      | some session =>
          match session.statement p.store with
          | none => p
          | some statement => p.execute n statement
  | .abort n =>
      match p.sessions n with
      | none => p
      | some session => if (session.statement p.store).isSome then p.close n .aborted else p
  | .createDatabase payload password =>
      match p.store.createDatabase payload password with
      | .ok (_, s) => { p with store := s }
      | .error _ => p

end Server
end CoderManager
