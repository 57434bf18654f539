import CoderManager.Repositories.Reads
import CoderManager.Refinement.Deletions
import CoderManager.Results.AdminCredentials
import CoderManager.Results.SystemRevisions

/-!
# Stored secrets

Database passwords, kubeconfigs and system values are handed over by requests and
sealed for the row that keeps them. Every reader opens the value handed over last.
-/
namespace CoderManager
open Programs Tables

/-- What a request may hand over to be kept secret. -/
inductive Secret where
  | databasePassword (databaseId : UUID)
  | kubeconfig (instanceId : UUID)
  | systemValue (parameterId : UUID)
  deriving DecidableEq

def Secret.owner : Secret → UUID
  | .databasePassword id | .kubeconfig id | .systemValue id => id

def Store.envelope (s : Store) : Secret → Option Sealed
  | .databasePassword id => (s.databases.lookup id).map fun d => d.passwordEnc
  | .kubeconfig id => (s.kubernetesProviders.lookup id).map fun p => p.kubeconfigEnc
  | .systemValue id => s.systemValues.lookup id

def Request.supplies (s : Store) : Request → Option (Secret × String)
  | .createDatabase _ password => some (.databasePassword s.nextId, password)
  | .updateDatabase id _ (some password) => some (.databasePassword id, password)
  | .createKubernetesProvider id kubeconfig => some (.kubeconfig id, kubeconfig)
  | .createParameter _ _ _ _ (.system value) => some (.systemValue s.nextId, value)
  | .updateParameter _ id _ _ (.system (some value)) => some (.systemValue id, value)
  | _ => none

def supplying (w : World) (secret : Secret) : WhatHappened → Option String
  | .changed (.request r) =>
      match r.handle w.store with
      | .error _ => none
      | .ok _ => ((r.supplies w.store).filter fun supply => supply.1 = secret).map Prod.snd
  | _ => none

/-- The value handed over last. -/
def supplied (t : Trace) (secret : Secret) : Option String :=
  t.findSome? fun e => supplying e.before secret e.what

section Requests
variable {s s' : Store} {r : Request} {secret : Secret} {e' : Sealed}

theorem Sealed.eq_encrypt {envelope : Sealed} {id : UUID} {value : String}
    (opened : envelope.decrypt id = some value) : envelope = .encrypt value id := by
  unfold Sealed.decrypt at opened
  split at opened
  · rename_i hbound
    cases opened
    exact hbound ▸ rfl
  · cases opened

theorem Store.updateParameter_value {id parameterId j : UUID} {displayName description value : String}
    (h : s.updateParameter id parameterId displayName description (.system (some value)) =
      .ok (j, s')) : s'.systemValues.lookup parameterId = some (.encrypt value parameterId) := by
  simp only [updateParameter, bind_eq_ok] at h
  obtain ⟨t, -, p, -, h⟩ := h
  cases htype : p.type <;> simp only [htype] at h
  case user => cases throw_eq_ok.mp h
  case system =>
    split at h
    · simp only [pure_eq_ok, Prod.mk.injEq] at h
      exact h.2 ▸ Table.lookup_insert_self _ _ _
    · rename_i stored hstored
      split at h
      · cases throw_eq_ok.mp h
      · rename_i current hopened
        split at h
        · rename_i hsame
          simp only [pure_eq_ok, Prod.mk.injEq] at h
          rw [← h.2, ← hsame, ← Sealed.eq_encrypt hopened]
          exact hstored
        · simp only [pure_eq_ok, Prod.mk.injEq] at h
          exact h.2 ▸ Table.lookup_insert_self _ _ _

theorem Store.updateDatabase_keeps_password {id j : UUID} {payload : DatabaseFields}
    (h : s.updateDatabase id payload none = .ok (j, s')) :
    s'.envelope (.databasePassword id) = s.envelope (.databasePassword id) := by
  simp only [updateDatabase, bind_eq_ok, pure_eq_ok, present_eq_ok, Prod.mk.injEq] at h
  obtain ⟨d, hd, -, -, -, -, -, rfl⟩ := h
  simp [envelope, hd]

theorem Request.envelope_supplied {value : String} (h : r.handle s = .ok s')
    (supply : r.supplies s = some (secret, value)) :
    s'.envelope secret = some (.encrypt value secret.owner) := by
  have ha := accepted h
  cases r <;> simp only [handle, commit_eq_ok] at h <;> obtain ⟨a, h⟩ := h
  case createDatabase =>
    cases supply
    simp only [Store.createDatabase, Store.drawId, bind_eq_ok, pure_eq_ok, Prod.mk.injEq] at h
    obtain ⟨-, -, -, rfl⟩ := h
    simp [Store.envelope, Secret.owner]
  case updateDatabase id payload password =>
    cases password <;> cases supply
    simp only [Store.updateDatabase, bind_eq_ok, pure_eq_ok, Prod.mk.injEq] at h
    obtain ⟨d, -, -, -, -, -, -, rfl⟩ := h
    simp [Store.envelope, Secret.owner]
  case createKubernetesProvider =>
    cases supply
    cases ha with
    | createKubernetesProvider row settled unset stored =>
        subst stored
        exact congrArg (Option.map _) (Table.lookup_insert_self _ _ _)
  case createParameter id name displayName description given =>
    cases given <;> cases supply
    cases ha with
    | createSystemParameter => exact Table.lookup_insert_self _ _ _
  case updateParameter id parameterId displayName description update =>
    cases update with
    | user => cases supply
    | system given =>
        cases given <;> cases supply
        exact Store.updateParameter_value h
  all_goals cases supply

/-- The tables that keep secrets. -/
structure SameSecrets (s s' : Store) : Prop where
  databases : s'.databases = s.databases
  kubernetesProviders : s'.kubernetesProviders = s.kubernetesProviders
  systemValues : s'.systemValues = s.systemValues

theorem SameSecrets.envelope (h : SameSecrets s s') : s'.envelope = s.envelope := by
  funext secret
  cases secret <;> simp only [Store.envelope, h.databases, h.kubernetesProviders, h.systemValues]

theorem sameSecrets_requestInstanceUpdate (id : UUID) (i : Instance) :
    SameSecrets s (s.requestInstanceUpdate id i) := by
  unfold Store.requestInstanceUpdate
  split
  · exact ⟨rfl, rfl, rfl⟩
  · exact ⟨rfl, rfl, rfl⟩

theorem sameSecrets_discardCurrentJob (id : UUID) : SameSecrets s (s.discardCurrentJob id) := by
  rcases s.discardCurrentJob_cases id with ⟨h, -⟩ | ⟨t, j, -, -, h⟩ <;> rw [h]
  · exact ⟨rfl, rfl, rfl⟩
  · exact ⟨rfl, rfl, rfl⟩

/-- A request leaves the secrets alone that it does not hand over. -/
theorem Request.envelope_kept (h : r.handle s = .ok s')
    (other : ∀ value, r.supplies s ≠ some (secret, value)) (row' : s'.envelope secret = some e') :
    s.envelope secret = some e' := by
  have same : SameSecrets s s' → s.envelope secret = some e' := fun hsame => hsame.envelope ▸ row'
  have ha := accepted h
  cases ha with
  | createDatabase =>
      cases secret with
      | databasePassword id =>
          have hne : id ≠ s.nextId := by
            rintro rfl
            exact other _ rfl
          simpa [Store.envelope, Table.lookup_insert_ne _ _ hne] using row'
      | kubeconfig | systemValue => exact row'
  | @updateDatabase id payload password =>
      cases secret with
      | kubeconfig | systemValue => exact row'
      | databasePassword id' =>
          by_cases hid : id' = id
          · subst hid
            cases password with
            | some value => exact absurd rfl (other value)
            | none =>
                obtain ⟨j, h⟩ := commit_eq_ok.mp h
                exact Store.updateDatabase_keeps_password h ▸ row'
          · simpa [Store.envelope, Table.lookup_insert_ne _ _ hid] using row'
  | deleteDatabase =>
      cases secret with
      | kubeconfig | systemValue => exact row'
      | databasePassword id =>
          obtain ⟨d, hd, hsealed⟩ := Option.map_eq_some_iff.mp row'
          exact Option.map_eq_some_iff.mpr ⟨d, (Table.lookup_erase_some.mp hd).2, hsealed⟩
  | @createKubernetesProvider id kubeconfig i providers row settled unset stored =>
      subst stored
      cases secret with
      | databasePassword | systemValue => exact row'
      | kubeconfig id' =>
          have hne : id' ≠ id := by
            rintro rfl
            exact other _ rfl
          exact (congrArg (Option.map _) (Table.lookup_insert_ne _ _ hne)).symm.trans row'
  | createSystemParameter =>
      cases secret with
      | databasePassword | kubeconfig => exact row'
      | systemValue id =>
          have hne : id ≠ s.nextId := by
            rintro rfl
            exact other _ rfl
          exact (Table.lookup_insert_ne _ _ hne).symm.trans row'
  | updateSystemValue =>
      cases secret with
      | databasePassword | kubeconfig => exact row'
      | systemValue id =>
          refine (Table.lookup_insert_ne _ _ ?_).symm.trans row'
          rintro rfl
          exact other _ rfl
  | deleteUserParameter | deleteSystemParameter =>
      cases secret with
      | databasePassword | kubeconfig => exact row'
      | systemValue id => exact (Table.lookup_erase_some.mp row').2
  | deleteTemplate _ _ _ _ _ _ valuesKept =>
      subst valuesKept
      cases secret with
      | databasePassword id =>
          exact (congrFun (sameSecrets_discardCurrentJob _).envelope (.databasePassword id)).symm.trans
            row'
      | kubeconfig id =>
          exact (congrFun (sameSecrets_discardCurrentJob _).envelope (.kubeconfig id)).symm.trans row'
      | systemValue id => exact (Table.lookup_deleteWhere_some.mp row').1
  | createMember | updateMemberRole | requestMemberDeletion =>
      exact same ⟨(sameSecrets_requestInstanceUpdate _ _).databases,
        (sameSecrets_requestInstanceUpdate _ _).kubernetesProviders,
        (sameSecrets_requestInstanceUpdate _ _).systemValues⟩
  | updateTemplate | requestTemplateSync =>
      exact same ⟨(sameSecrets_discardCurrentJob _).databases,
        (sameSecrets_discardCurrentJob _).kubernetesProviders,
        (sameSecrets_discardCurrentJob _).systemValues⟩
  | _ => exact same ⟨rfl, rfl, rfl⟩

end Requests

section Workers
variable {s s' : Store} {β : Type} {t : Transaction β} {a : β}

theorem providers_modifyResource (job : JobExecution) (f : Lifecycle → Lifecycle) :
    (s.modifyResource job f).kubernetesProviders = s.kubernetesProviders := by
  unfold Store.modifyResource Store.modifyLifecycle
  split
  · split <;> rfl
  · rfl

theorem Mutated.providers {job : JobExecution} {m : Mutation} (h : Mutated s job m s') :
    s'.kubernetesProviders = s.kubernetesProviders := by
  cases h with
  | convergeWorkspace _ _ _ stored => rw [stored]
  | _ => rfl

theorem Committed.providers (hc : Committed s t a s') (id : UUID) :
    s'.kubernetesProviders.lookup id = s.kubernetesProviders.lookup id ∨
      (s'.kubernetesProviders.lookup id = none ∧ s'.instances.lookup id = none) := by
  have same : s'.kubernetesProviders = s.kubernetesProviders →
      s'.kubernetesProviders.lookup id = s.kubernetesProviders.lookup id ∨
        (s'.kubernetesProviders.lookup id = none ∧ s'.instances.lookup id = none) :=
    fun h => .inl (congrArg (fun t => t.lookup id) h)
  cases hc with
  | claimExecution | retryReclaimed => exact same (providers_modifyResource _ _)
  | advanceExecution _ hm | completeExecution _ hm | deferExecution _ hm | failExecution _ hm =>
      exact same ((providers_modifyResource _ _).trans hm.providers)
  | completeDeletion _ hm =>
      refine same (Eq.trans ?_ hm.providers)
      unfold Store.deleteResource Store.deleteLifecycle
      split
      · split <;> rfl
      · rfl
  | finalizeUpdate _ _ final =>
      exact same (final ▸ providers_modifyResource _ _)
  | @finalizeAgain _ _ _ _ _ _ s₁ _ _ final =>
      have hs₁ : s₁.kubernetesProviders = s.kubernetesProviders :=
        final ▸ providers_modifyResource _ _
      exact same hs₁
  | @removeLocalConfiguration _ _ id' =>
      by_cases hid : id = id'
      · subst hid
        exact .inr ⟨by simp [Store.removeInstance, Table.lookup_erase],
          by simp [Store.removeInstance, Table.lookup_erase]⟩
      · exact .inl (by simp [Store.removeInstance, Table.lookup_erase, hid, Store.modifyJob])
  | _ => exact same rfl

theorem Committed.envelope (hc : Committed s t a s') {secret : Secret} {e : Sealed}
    (row' : s'.envelope secret = some e) : s.envelope secret = some e := by
  have hn := Narrowed.committed hc
  cases secret with
  | databasePassword id => simpa only [Store.envelope, hn.databases] using row'
  | systemValue id => simpa only [Store.envelope, hn.systemValues] using row'
  | kubeconfig id =>
      rcases hc.providers id with hsame | ⟨hnone, -⟩
      · exact (congrArg (Option.map _) hsame).symm.trans row'
      · simp [Store.envelope, hnone] at row'

end Workers

section Runs
variable {w w' : World} {t : Trace} {what : WhatHappened} {secret : Secret} {e : Sealed}

theorem supplied_cons : supplied (⟨w, what⟩ :: t) secret =
    ((supplying w secret what).or (supplied t secret)) := by
  unfold supplied
  rw [List.findSome?_cons]
  cases supplying w secret what <;> rfl

theorem Run.secret_supplied (h : Run w t) : ∀ secret e, w.store.envelope secret = some e →
    ∃ value, supplied t secret = some value ∧ e = .encrypt value secret.owner := by
  refine h.induction (motive := fun w t => ∀ secret e, w.store.envelope secret = some e →
    ∃ value, supplied t secret = some value ∧ e = .encrypt value secret.owner)
    ?start ?move
  case start =>
    intro secret e row
    cases secret <;> cases row
  case move =>
    intro w t what w' hrun hm ih secret e' row'
    rw [supplied_cons]
    cases what with
    | called worker event =>
        refine ih secret e' ?_
        rcases hm.store_cases with h | ⟨now, h⟩ | ⟨r, hwhat, -⟩ | ⟨worker, β, tr, a, -, -, hc⟩
        · exact h ▸ row'
        · rw [h] at row'
          cases secret <;> exact row'
        · cases hwhat
        · exact hc.envelope row'
    | changed c =>
        cases c with
        | request r =>
            rw [hm.reacted] at row'
            cases hr : r.handle w.store with
            | error => 
                simp only [World.react, hr] at row'
                simpa only [supplying, hr, Option.none_or] using ih secret e' row'
            | ok s =>
                simp only [World.react, hr] at row'
                simp only [supplying, hr]
                by_cases hsupplies : ∃ value, r.supplies w.store = some (secret, value)
                · obtain ⟨value, hvalue⟩ := hsupplies
                  refine ⟨value, by simp [hvalue], ?_⟩
                  exact Option.some.inj (row'.symm.trans (r.envelope_supplied hr hvalue))
                · have hother : ∀ value, r.supplies w.store ≠ some (secret, value) :=
                    fun value hvalue => hsupplies ⟨value, hvalue⟩
                  have hnone : (r.supplies w.store).filter (fun supply => supply.1 = secret) = none := by
                    refine Option.filter_eq_none_iff.mpr ?_
                    rintro ⟨secret', value⟩ hvalue hsame
                    exact hother value (by simpa using (of_decide_eq_true hsame) ▸ hvalue)
                  rw [hnone]
                  exact ih secret e' (r.envelope_kept hr hother row')
        | tick =>
            rw [hm.reacted] at row'
            refine ih secret e' ?_
            cases secret <;> exact row'

theorem Request.supplies_kubeconfig {s : Store} {r : Request} {id : UUID} {value : String}
    (h : r.supplies s = some (.kubeconfig id, value)) : r = .createKubernetesProvider id value := by
  unfold supplies at h
  split at h <;> cases h
  rfl

theorem Accepted.providers {s s' : Store} {r : Request} (h : Accepted s r s') :
    Table.Covered s.kubernetesProviders s'.kubernetesProviders := by
  have same : s'.kubernetesProviders = s.kubernetesProviders →
      Table.Covered s.kubernetesProviders s'.kubernetesProviders := fun h => h ▸ .refl _
  cases h with
  | createKubernetesProvider _ _ _ stored => exact stored ▸ .insert
  | createMember | updateMemberRole | requestMemberDeletion =>
      exact same (sameSecrets_requestInstanceUpdate _ _).kubernetesProviders
  | updateTemplate | deleteTemplate | requestTemplateSync =>
      exact same (sameSecrets_discardCurrentJob _).kubernetesProviders
  | _ => exact same rfl

/-- A kubeconfig that was handed over is kept as long as its instance. -/
def Uploaded (s : Store) (t : Trace) : Prop :=
  ∀ id value, supplied t (.kubeconfig id) = some value →
    id < s.nextId ∧ ∀ i, s.instances.lookup id = some i → ∃ p, s.kubernetesProviders.lookup id = some p

theorem Run.uploaded (h : Run w t) : Uploaded w.store t := by
  refine h.induction (motive := fun w t => Uploaded w.store t) ?start ?move
  case start =>
    intro id value hsupplied
    cases hsupplied
  case move =>
    intro w t what w' hrun hm ih id value hsupplied
    rw [supplied_cons] at hsupplied
    have kept : supplied t (.kubeconfig id) = some value → id < w'.store.nextId ∧
        ∀ i, w'.store.instances.lookup id = some i →
          ∃ p, w'.store.kubernetesProviders.lookup id = some p := by
      intro hold
      obtain ⟨hlt, hprovider⟩ := ih id value hold
      refine ⟨Nat.lt_of_lt_of_le hlt (hm.nextId_le hrun.sound), fun i' row' => ?_⟩
      rcases hm.instance_cases hrun.sound row' with ⟨-, -, -, rfl, -⟩ | ⟨i, row, -⟩
      · exact absurd hlt (Nat.lt_irrefl _)
      · obtain ⟨p, hp⟩ := hprovider i row
        rcases hm.store_cases with h | ⟨now, h⟩ | ⟨r, -, h⟩ | ⟨worker, β, tr, a, -, -, hc⟩
        · exact ⟨p, h ▸ hp⟩
        · exact ⟨p, by rw [h]; exact hp⟩
        · exact h.providers id p hp
        · rcases hc.providers id with hsame | ⟨-, hgone⟩
          · exact ⟨p, hsame.trans hp⟩
          · cases hgone.symm.trans row'
    cases what with
    | called worker event => exact kept hsupplied
    | changed c =>
        cases c with
        | tick => exact kept hsupplied
        | request r =>
            cases hr : r.handle w.store with
            | error =>
                simp only [supplying, hr, Option.none_or] at hsupplied
                exact kept hsupplied
            | ok s =>
                simp only [supplying, hr] at hsupplied
                cases hsupply : (r.supplies w.store).filter
                    (fun supply => supply.1 = .kubeconfig id) with
                | none =>
                    simp only [hsupply, Option.map_none, Option.none_or] at hsupplied
                    exact kept hsupplied
                | some supply =>
                    obtain ⟨hr', hsecret⟩ := Option.filter_eq_some_iff.mp hsupply
                    obtain ⟨secret, v⟩ := supply
                    obtain rfl : secret = .kubeconfig id := of_decide_eq_true hsecret
                    obtain rfl := r.supplies_kubeconfig hr'
                    have hstore : w'.store = s := by simp only [hm.reacted, World.react, hr]
                    have hlater := hm.nextId_le hrun.sound
                    rw [hstore] at hlater ⊢
                    cases Request.accepted hr with
                    | createKubernetesProvider row _ _ stored =>
                        refine ⟨Nat.lt_of_lt_of_le (hrun.sound.grounded.instances _ _ row) hlater,
                          fun _ _ => ?_⟩
                        subst stored
                        exact ⟨_, Table.lookup_insert_self _ _ _⟩

/-- A stored envelope opens to the value handed over last. -/
theorem Run.secret_opens (h : Run w t) (secret : Secret) (row : w.store.envelope secret = some e) :
    ∃ value, supplied t secret = some value ∧ e.decrypt secret.owner = some value := by
  obtain ⟨value, hvalue, rfl⟩ := h.secret_supplied secret e row
  exact ⟨value, hvalue, by simp [Sealed.encrypt, Sealed.decrypt]⟩

end Runs

/-- Every reader of a stored secret is served the value handed over last. -/
structure SecretsServed (s : Store) (t : Trace) : Prop where
  databases : ∀ id i, s.instances.lookup id = some i → ∃ a d password,
    s.allocations.lookup id = some a ∧ s.databases.lookup a.databaseId = some d ∧
    supplied t (.databasePassword a.databaseId) = some password ∧
    s.managedDatabaseTarget id = .ok (some ({
      host := d.host, port := d.port, databaseName := d.databaseName, username := d.username
      password, schemaName := a.schemaName }, d.name))
  kubeconfigs : ∀ id i, s.instances.lookup id = some i →
    s.storedKubeconfig id = .ok (supplied t (.kubeconfig id)) ∧
    s.getInstanceProviderConfiguration id =
      respond (supplied t (.kubeconfig id)) ⟨404, "Kubernetes provider not configured"⟩
  parameters : ∀ templateId, ∃ values, s.systemParameterValues templateId = .ok values ∧
    ∀ name value, (name, value) ∈ values ↔ ∃ id, s.HasSystemParameter templateId id name ∧
      supplied t (.systemValue id) = some value
  checks : ∀ connects id d, s.databases.lookup id = some d → ∃ password,
    supplied t (.databasePassword id) = some password ∧
    s.checkDatabase connects id =
      if connects {
        host := d.host, port := d.port, database := d.databaseName, user := d.username, password }
      then .ok () else .error ⟨502, "Database connection is unavailable"⟩
  administrators : ∀ id i, s.instances.lookup id = some i →
    (i.passwordEnc = none ∧
      s.getInstanceAdmin id = .error ⟨404, "Instance admin account not initialized"⟩) ∨
    ∃ password, s.getInstanceAdmin id = .ok ⟨ArgoCd.adminUsername, adminEmail, password⟩ ∧
      ∀ worker asked, BootstrapCall t worker id asked → asked = password

section Readers
variable {w : World} {t : Trace}

theorem Run.serves_databases (h : Run w t) {id : UUID} {i : Instance}
    (row : w.store.instances.lookup id = some i) : ∃ a d password,
    w.store.allocations.lookup id = some a ∧ w.store.databases.lookup a.databaseId = some d ∧
    supplied t (.databasePassword a.databaseId) = some password ∧
    w.store.managedDatabaseTarget id = .ok (some ({
      host := d.host, port := d.port, databaseName := d.databaseName, username := d.username
      password, schemaName := a.schemaName }, d.name)) := by
  obtain ⟨a, d, hallocation, hdatabase⟩ := h.hosted id i row
  obtain ⟨password, hsupplied, hopens⟩ := h.secret_opens (.databasePassword a.databaseId)
    (show _ = some d.passwordEnc by simp [Store.envelope, hdatabase])
  refine ⟨a, d, password, hallocation, hdatabase, hsupplied, ?_⟩
  simp only [Secret.owner] at hopens
  simp [Store.managedDatabaseTarget, hallocation, hdatabase, hopens, found, bind, Except.bind, pure,
    Except.pure]

theorem Run.serves_kubeconfigs (h : Run w t) {id : UUID} {i : Instance}
    (row : w.store.instances.lookup id = some i) :
    w.store.storedKubeconfig id = .ok (supplied t (.kubeconfig id)) ∧
    w.store.getInstanceProviderConfiguration id =
      respond (supplied t (.kubeconfig id)) ⟨404, "Kubernetes provider not configured"⟩ := by
  cases hprovider : w.store.kubernetesProviders.lookup id with
  | some provider =>
      obtain ⟨value, hsupplied, hopens⟩ := h.secret_opens (.kubeconfig id)
        (show _ = some provider.kubeconfigEnc by simp [Store.envelope, hprovider])
      simp only [Secret.owner] at hopens
      simp [Store.storedKubeconfig, Store.getInstanceProviderConfiguration, hprovider, hsupplied,
        hopens, found, respond, bind, Except.bind, pure, Except.pure]
  | none =>
      have hunset : supplied t (.kubeconfig id) = none := by
        refine Option.eq_none_iff_forall_ne_some.mpr fun value hvalue => ?_
        obtain ⟨p, hp⟩ := (h.uploaded id value hvalue).2 i row
        cases hprovider.symm.trans hp
      simp [Store.storedKubeconfig, Store.getInstanceProviderConfiguration, hprovider, hunset, row,
        respond]

theorem Run.serves_parameters (h : Run w t) (templateId : UUID) :
    ∃ values, w.store.systemParameterValues templateId = .ok values ∧
      ∀ name value, (name, value) ∈ values ↔ ∃ id, w.store.HasSystemParameter templateId id name ∧
        supplied t (.systemValue id) = some value := by
  let value := fun p : UUID × String => (p.2, (supplied t (.systemValue p.1)).getD "")
  have hserved : ∀ p ∈ w.store.systemParameters templateId, ∃ v,
      supplied t (.systemValue p.1) = some v ∧ w.store.systemValue p = .ok (p.2, v) := by
    rintro ⟨id, name⟩ hmem
    obtain ⟨p, hp, -, htype, -⟩ := Store.mem_systemParameters.mp hmem
    obtain ⟨stored, hstored⟩ := h.system_valued.valued id p hp htype
    obtain ⟨v, hsupplied, hopens⟩ := h.secret_opens (.systemValue id) hstored
    simp only [Secret.owner] at hopens
    refine ⟨v, hsupplied, ?_⟩
    simp [Store.systemValue, hstored, hopens, found, bind, Except.bind, pure, Except.pure]
  have hvalue : ∀ p ∈ w.store.systemParameters templateId,
      w.store.systemValue p = .ok (value p) := by
    intro p hmem
    obtain ⟨v, hsupplied, hv⟩ := hserved p hmem
    simp [hv, value, hsupplied]
  refine ⟨(w.store.systemParameters templateId).map value, ?_, ?_⟩
  · rw [Store.systemParameterValues_eq, Dicts.mapM_congr hvalue]
    have hspec : ∀ (p : UUID × String) b,
        (Except.ok (value p) : Except WorkerError _) = .ok b ↔ True ∧ b = value p :=
      fun p b => by rw [Except.ok.injEq, true_and, eq_comm]
    exact (Dicts.mapM_eq_ok hspec).mpr ⟨fun _ _ => trivial, rfl⟩
  · intro name v
    rw [List.mem_map]
    constructor
    · rintro ⟨⟨id, name⟩, hmem, hsame⟩
      obtain ⟨v', hsupplied, -⟩ := hserved _ hmem
      simp only [value, hsupplied, Option.getD_some, Prod.mk.injEq] at hsame
      exact ⟨id, hsame.1 ▸ Store.mem_systemParameters.mp hmem, hsame.2 ▸ hsupplied⟩
    · rintro ⟨id, hsystem, hsupplied⟩
      exact ⟨(id, name), Store.mem_systemParameters.mpr hsystem, by simp [value, hsupplied]⟩

theorem Run.serves_checks (h : Run w t) (connects : DatabaseConnection → Bool) {id : UUID}
    {d : Database} (row : w.store.databases.lookup id = some d) : ∃ password,
    supplied t (.databasePassword id) = some password ∧
    w.store.checkDatabase connects id =
      if connects {
        host := d.host, port := d.port, database := d.databaseName, user := d.username, password }
      then .ok () else .error ⟨502, "Database connection is unavailable"⟩ := by
  obtain ⟨password, hsupplied, hopens⟩ := h.secret_opens (.databasePassword id)
    (show _ = some d.passwordEnc by simp [Store.envelope, row])
  simp only [Secret.owner] at hopens
  refine ⟨password, hsupplied, ?_⟩
  simp only [Store.checkDatabase, row, hopens, respond, bind, Except.bind]
  rfl

/-- What the administrator's password opens to is what every bootstrap asked for. -/
theorem Run.serves_administrators {steps : List Step} {id : UUID} {i : Instance}
    (row : (run steps).world.store.instances.lookup id = some i) :
    (i.passwordEnc = none ∧ (run steps).world.store.getInstanceAdmin id =
      .error ⟨404, "Instance admin account not initialized"⟩) ∨
    ∃ password, (run steps).world.store.getInstanceAdmin id =
        .ok ⟨ArgoCd.adminUsername, adminEmail, password⟩ ∧
      ∀ worker asked, BootstrapCall (run steps).trace worker id asked → asked = password := by
  have hrun := run_reaches steps
  cases hset : i.passwordEnc with
  | none => exact .inl ⟨rfl, by simp [Store.getInstanceAdmin, row, hset, respond, bind, Except.bind]⟩
  | some e =>
      have hbound : e.boundTo = id := (hrun.credited id i row).bound e (.inl hset)
      refine .inr ⟨e.plaintext, ?_, ?_⟩
      · simp [Store.getInstanceAdmin, row, hset, Sealed.decrypt, hbound, respond, bind, Except.bind,
          pure, Except.pure]
      · intro worker asked hcall
        obtain ⟨c, p, hprepared, rfl, hasked⟩ := hcall.prepared
        have hfits := hrun.agreed.fits worker c p hprepared i row
        simp only [BootstrapPreparation.Fits, hasked, hset, Option.some.injEq, reduceCtorEq,
          false_and, or_false] at hfits
        rw [hfits]
        rfl

end Readers

/-- In every state each credential that is read, by a worker or by a route, is the
one handed over last. -/
theorem stored_secrets_are_served (steps : List Step) :
    SecretsServed (run steps).world.store (run steps).trace where
  databases := fun _ _ row => (run_reaches steps).serves_databases row
  kubeconfigs := fun _ _ row => (run_reaches steps).serves_kubeconfigs row
  parameters := (run_reaches steps).serves_parameters
  checks := fun connects _ _ row => (run_reaches steps).serves_checks connects row
  administrators := fun _ _ row => Run.serves_administrators row
end CoderManager
