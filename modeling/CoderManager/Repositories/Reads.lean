import CoderManager.Domains.ArgoCd
import CoderManager.Repositories.Instances

/-!
# Read routes

What the routes that read a credential answer. The encryption key is configured.
-/
namespace CoderManager

structure HttpException where
  statusCode : Nat
  detail : String
  deriving DecidableEq, Repr

def respond {α : Type} (row : Option α) (error : HttpException) : Except HttpException α :=
  match row with
  | some a => .ok a
  | none => .error error

def adminEmail : String := "admin@coder.local"

structure InstanceAdminCredentialsRead where
  username : String
  email : String
  password : String
  deriving DecidableEq, Repr

/-- The arguments of `asyncpg.connect`. -/
structure DatabaseConnection where
  host : String
  port : Nat
  database : String
  user : String
  password : String
  deriving DecidableEq, Repr

namespace Store

def getInstanceAdmin (s : Store) (instanceId : UUID) :
    Except HttpException InstanceAdminCredentialsRead := do
  let i ← respond (s.instances.lookup instanceId) ⟨404, "Instance not found"⟩
  let envelope ← respond i.passwordEnc ⟨404, "Instance admin account not initialized"⟩
  let password ← respond (envelope.decrypt instanceId)
    ⟨503, "Instance admin password cannot be decrypted"⟩
  return { username := ArgoCd.adminUsername, email := adminEmail, password }

/-- `get_instance_provider_configuration`: the kubeconfig it sends. -/
def getInstanceProviderConfiguration (s : Store) (instanceId : UUID) :
    Except HttpException String :=
  match s.kubernetesProviders.lookup instanceId with
  | some provider =>
      respond (provider.kubeconfigEnc.decrypt instanceId) ⟨503, "Kubeconfig cannot be decrypted"⟩
  | none =>
      match s.instances.lookup instanceId with
      | none => .error ⟨404, "Instance not found"⟩
      | some _ => .error ⟨404, "Kubernetes provider not configured"⟩

/-- `check_database`. `connects` says whether the server accepts the connection. -/
def checkDatabase (s : Store) (connects : DatabaseConnection → Bool) (databaseId : UUID) :
    Except HttpException Unit := do
  let d ← respond (s.databases.lookup databaseId) ⟨404, "Database not found"⟩
  let password ← respond (d.passwordEnc.decrypt databaseId)
    ⟨503, "Database password cannot be decrypted"⟩
  let connection : DatabaseConnection := {
    host := d.host, port := d.port, database := d.databaseName, user := d.username, password }
  if connects connection then return ()
  else throw ⟨502, "Database connection is unavailable"⟩

end Store
end CoderManager
