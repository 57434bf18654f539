import CoderManager.Discipline.Attempts
import CoderManager.Results.InstanceLifecycle
import CoderManager.Results.WorkspaceReferences

/-!
# Administrator credentials

Every attempt to create the administrator of an instance uses the same password:
the candidate is drawn once, stored before the first remote request, and kept
until it becomes the password of the instance.
-/
namespace CoderManager
open Programs Tables

def Instance.Provisioned (i : Instance) : Prop :=
  i.action = .updating ∨ i.action = .starting ∨ i.action = .stopping ∨
    (i.action = .creating ∧ i.status = .success)

structure Instance.Credited (id : UUID) (i : Instance) : Prop where
  kind : i.Provisioned ∨ i.action = .creating ∨ i.action = .deleting
  bound : ∀ e, i.passwordEnc = some e ∨ i.passwordCandidateEnc = some e → e.boundTo = id
  promoted : i.passwordEnc ≠ none → i.passwordCandidateEnc = none
  named : i.step = some .instanceCreateStep03 → i.argocdApplicationName ≠ none
  ready : i.Provisioned → i.passwordEnc ≠ none ∧ i.argocdApplicationName ≠ none

theorem newInstance_credited (id : UUID) (application slug : String) (jobId : UUID) :
    (newInstance application slug jobId).Credited id where
  kind := .inr (.inl rfl)
  bound := fun _ h => by rcases h with h | h <;> cases h
  promoted := fun h => absurd rfl h
  named := fun h => nomatch h
  ready := fun h => by rcases h with h | h | h | ⟨-, h⟩ <;> cases h

section Rows
variable {s : Store} {id : UUID} {i i' : Instance} {β : Type} {t : Transaction β} {a : β}

theorem Worked.provisioned (h : Worked .instance i.toLifecycle i'.toLifecycle)
    (settled : i'.action = .creating → i'.status = .success → i.status = .success)
    (ready : i'.Provisioned) : i.Provisioned := by
  rcases h.keeps with ⟨haction, -⟩ | hup | hup
  · unfold Instance.Provisioned at ready ⊢
    rw [haction] at ready
    refine ready.imp_right (.imp_right (.imp_right fun ⟨hcreating, hsuccess⟩ => ⟨hcreating, ?_⟩))
    exact settled (haction.trans hcreating) hsuccess
  · exact .inl hup
  · exact .inr (.inl hup)

theorem Worked.kind (h : Worked .instance i.toLifecycle i'.toLifecycle)
    (kind : i.Provisioned ∨ i.action = .creating ∨ i.action = .deleting) :
    i'.Provisioned ∨ i'.action = .creating ∨ i'.action = .deleting := by
  rcases h.action_cases with haction | hup
  · unfold Instance.Provisioned at kind ⊢
    rw [haction]
    tauto
  · exact .inl (.inl hup)

theorem Edited.credited (he : Edited s id i i' t a)
    (hw : Worked .instance i.toLifecycle i'.toLifecycle) (h : i.Credited id) : i'.Credited id := by
  have hkind := hw.kind h.kind
  cases he with
  | lifecycle same step settled =>
      have hready := hw.provisioned settled
      rw [same] at *
      exact ⟨hkind, h.bound, h.promoted, fun hstep => h.named (step hstep),
        fun hp => h.ready (hready hp)⟩
  | named name same settled =>
      have hready := hw.provisioned settled
      rw [same] at *
      exact ⟨hkind, h.bound, h.promoted, fun _ => Option.some_ne_none name,
        fun hp => ⟨(h.ready (hready hp)).1, Option.some_ne_none name⟩⟩
  | @drawn _ _ _ token _ _ unset _ _ _ same =>
      subst same
      refine ⟨hkind, ?_, fun hset => absurd unset hset, h.named, h.ready⟩
      rintro e (he | he)
      · exact h.bound e (.inl he)
      · cases he
        rfl
  | @promoted _ _ password _ _ current candidate same =>
      have hname : i.argocdApplicationName ≠ none := h.named current.2
      rw [same] at *
      refine ⟨hkind, ?_, fun _ => rfl, fun _ => hname, fun _ => ⟨Option.some_ne_none _, hname⟩⟩
      rintro e (he | he)
      · cases he
        exact h.bound password (candidate.imp_right fun h => h.2)
      · cases he

theorem Restarted.credited {r : Request} {l : Lifecycle} (hr : Restarted s id i r l)
    (alive : i.action = .deleting → i.status ≠ .success) (h : i.Credited id) :
    ({ i with toLifecycle := l } : Instance).Credited id := by
  cases hr with
  | deletion _ _ entry =>
      refine ⟨.inr (.inr rfl), h.bound, h.promoted, fun hstep => ?_, fun hp => ?_⟩
      · rcases entry with ⟨rfl, -⟩ | ⟨rfl, -⟩ <;> cases hstep
      · rcases hp with hp | hp | hp | ⟨hp, -⟩ <;> cases hp
  | power _ _ _ staged settled =>
      have hready : i.Provisioned := by
        rcases settled with hst | ⟨-, hcr, hdel⟩
        · rcases h.kind with hk | hk | hk
          · exact hk
          · exact .inr (.inr (.inr ⟨hk, hst⟩))
          · exact absurd hst (alive hk)
        · exact (h.kind.resolve_right fun hk => hk.elim hcr hdel)
      refine ⟨?_, h.bound, h.promoted, fun hstep => (h.ready hready).2, fun _ => h.ready hready⟩
      rcases staged with ⟨rfl, -⟩ | ⟨rfl, -⟩ | ⟨rfl, -⟩
      · exact .inl (.inl rfl)
      · exact .inl (.inr (.inl rfl))
      · exact .inl (.inr (.inr (.inl rfl)))

end Rows

theorem Moved.credited {w w' : World} {t : Trace} {what : WhatHappened} (hm : Moved w t what w')
    (hs : Sound w.store) (hf : w.store.Forward)
    (h : ∀ id i, w.store.instances.lookup id = some i → i.Credited id) {id : UUID} {i' : Instance}
    (row' : w'.store.instances.lookup id = some i') : i'.Credited id := by
  rcases hm.store_cases with heq | ⟨now, heq⟩ | ⟨r, rfl, hr⟩ | ⟨worker, β, tr, a, -, allowed, hc⟩
  · exact h id i' (heq ▸ row')
  · exact h id i' (by simpa [heq] using row')
  · rcases hr.instance_cases row' with ⟨application, slug, rfl, -, rfl⟩ |
        ⟨i, row, rfl | ⟨l, rfl, hrestart⟩⟩
    · exact newInstance_credited id application slug.text _
    · exact h id i' row
    · exact hrestart.credited (hf.deleting id i row) (h id i row)
  · obtain ⟨i, row, he⟩ := hc.edited allowed hs.ledger row'
    obtain ⟨r, hr, hworked⟩ := hc.worked allowed hs.ledger (Store.lifecycle_instance row')
    rw [Store.lifecycle_instance row, Option.some.injEq] at hr
    exact he.credited (hr ▸ hworked) (h id i row)

theorem Run.credited {w : World} {t : Trace} (h : Run w t) :
    ∀ id i, w.store.instances.lookup id = some i → i.Credited id := by
  refine h.induction
    (motive := fun w _ => ∀ id i, w.store.instances.lookup id = some i → i.Credited id) ?start ?move
  case start =>
    intro id i row
    cases row
  case move =>
    intro w t what w' hrun hm ih id i' row'
    exact hm.credited hrun.sound hrun.forward ih row'

def Prepared (t : Trace) (worker : Nat) (c : ExecutionClaim) (preparation : BootstrapPreparation) :
    Prop := Wrote (workerHistory worker t) (.prepareBootstrap c) (some preparation)

def BootstrapPreparation.Fits (preparation : BootstrapPreparation) (i : Instance) : Prop :=
  match preparation.password with
  | none => i.passwordEnc ≠ none
  | some password => i.passwordEnc = some (.encrypt password preparation.instanceUrl) ∨
      (i.passwordEnc = none ∧
        i.passwordCandidateEnc = some (.encrypt password preparation.instanceUrl))

theorem BootstrapPreparation.Fits.unique {p p' : BootstrapPreparation} {i : Instance}
    {password password' : String} (h : p.Fits i) (h' : p'.Fits i)
    (hp : p.password = some password) (hp' : p'.password = some password') : password = password' := by
  simp only [Fits, hp, hp'] at h h'
  rcases h with h | ⟨h, hc⟩ <;> rcases h' with h' | ⟨h', hc'⟩
  · exact congrArg Sealed.plaintext (Option.some.inj (h.symm.trans h'))
  · rw [h] at h'
    cases h'
  · rw [h] at h'
    cases h'
  · exact congrArg Sealed.plaintext (Option.some.inj (hc.symm.trans hc'))

theorem BootstrapPreparation.Fits.edited {p : BootstrapPreparation} {s : Store} {id : UUID}
    {i i' : Instance} {β : Type} {t : Transaction β} {a : β} (h : p.Fits i)
    (he : Edited s id i i' t a) : p.Fits i' := by
  cases he with
  | lifecycle same | named _ same =>
      rw [same]
      exact h
  | drawn _ _ unset first _ _ same =>
      unfold Fits at h
      split at h
      · exact absurd unset h
      · rcases h with h | ⟨-, h⟩
        · rw [unset] at h
          cases h
        · rw [first] at h
          cases h
  | promoted _ _ _ candidate same =>
      rw [same]
      unfold Fits at h ⊢
      split at h
      · exact Option.some_ne_none _
      · rcases candidate with hc | ⟨hu, hc⟩
        · refine .inl (hc.symm.trans (h.resolve_right fun h => ?_))
          rw [h.1] at hc
          cases hc
        · refine .inl (hc.symm.trans (h.resolve_left fun h => ?_).2)
          rw [h] at hu
          cases hu

/-- Preparations name their claim's instance and fit it, and those with a
password of one instance agree. -/
structure Agreed (w : World) (t : Trace) : Prop where
  known : ∀ worker c p, Prepared t worker c p → c.resourceId = some p.instanceUrl ∧
    p.instanceUrl < w.store.nextId
  fits : ∀ worker c p, Prepared t worker c p → ∀ i,
    w.store.instances.lookup p.instanceUrl = some i → p.Fits i
  unique : ∀ worker worker' c c' p p' password password', Prepared t worker c p →
    Prepared t worker' c' p' → p.instanceUrl = p'.instanceUrl → p.password = some password →
    p'.password = some password' → password = password'

section Preparations
variable {w w' : World} {t : Trace} {what : WhatHappened} {worker : Nat} {c : ExecutionClaim}
  {p : BootstrapPreparation}

theorem Moved.fits (hm : Moved w t what w') (hs : Sound w.store)
    (known : p.instanceUrl < w.store.nextId)
    (h : ∀ i, w.store.instances.lookup p.instanceUrl = some i → p.Fits i) {i' : Instance}
    (row' : w'.store.instances.lookup p.instanceUrl = some i') : p.Fits i' := by
  rcases hm.store_cases with heq | ⟨now, heq⟩ | ⟨r, rfl, hr⟩ | ⟨worker, β, tr, a, -, allowed, hc⟩
  · exact h i' (heq ▸ row')
  · exact h i' (by simpa [heq] using row')
  · rcases hr.instance_cases row' with ⟨_, _, -, hid, -⟩ | ⟨i, row, rfl | ⟨l, rfl, -⟩⟩
    · exact absurd hid (Nat.ne_of_lt known)
    · exact h i' row
    · exact h i row
  · obtain ⟨i, row, he⟩ := hc.edited allowed hs.ledger row'
    exact (h i row).edited he

end Preparations

def LeavesFit (s s' : Store) : {β : Type} → Transaction β → β → Prop
  | _, .prepareBootstrap c, some p => ∃ job i i', s.ownedExecution c = some job ∧
      job.resourceType = some .instance ∧ job.resourceId = some p.instanceUrl ∧
      s.instances.lookup p.instanceUrl = some i ∧ s'.instances.lookup p.instanceUrl = some i' ∧
      (i.Credited p.instanceUrl → p.Fits i')
  | _, _, _ => True

theorem Committed.leavesFit {s s' : Store} {β : Type} {t : Transaction β} {a : β}
    (hc : Committed s t a s') : LeavesFit s s' t a := by
  cases hc with
  | @bootstrapKept _ job id i p owned row _ url password =>
      obtain ⟨htype, hid, hi⟩ := Store.ownedInstance_eq_some.mp row
      subst url
      refine ⟨job, i, i, owned, htype, hid, hi, hi, fun hcredited => ?_⟩
      unfold BootstrapPreparation.Fits
      rcases password with ⟨hset, hnone⟩ | ⟨hunset, candidate, value, hcandidate, hvalue, hsome⟩
      · rw [hnone]
        exact Option.isSome_iff_ne_none.mp hset
      · -- The candidate is bound to the instance, so it is the value sealed for it.
        have hbound := hcredited.bound candidate (.inr hcandidate)
        have hplain : candidate.plaintext = value := by
          simpa [Sealed.decrypt, hbound] using hvalue
        rw [hsome]
        refine .inr ⟨hunset, hcandidate.trans ?_⟩
        rw [Sealed.encrypt, ← hbound, ← hplain]
  | @bootstrapDrawn _ job id i p token owned row _ url unset first password =>
      obtain ⟨htype, hid, hi⟩ := Store.ownedInstance_eq_some.mp row
      subst url
      refine ⟨job, i, _, owned, htype, hid, hi,
        (Table.lookup_modify_self _ _ _).trans (congrArg _ hi), fun _ => ?_⟩
      unfold BootstrapPreparation.Fits
      rw [password]
      exact .inr ⟨unset, rfl⟩
  | _ => trivial

theorem Moved.prepared {w w' : World} {t : Trace} {worker : Nat} {c : ExecutionClaim}
    {p : BootstrapPreparation} (hrun : Run w t)
    (hm : Moved w t (.called worker ⟨.transaction (.prepareBootstrap c), .ok (some p)⟩) w') :
    c.resourceId = some p.instanceUrl ∧ ∃ i i', w.store.instances.lookup p.instanceUrl = some i ∧
      w'.store.instances.lookup p.instanceUrl = some i' ∧ p.Fits i' := by
  obtain ⟨allowed, hc⟩ := hm.wrote
  obtain ⟨job, i, i', owned, htype, hid, hi, hi', hfits⟩ := hc.leavesFit
  have hresource := (hrun.owned_resource allowed.1 owned htype).2
  exact ⟨hresource.trans hid, i, i', hi, hi', hfits (hrun.credited _ i hi)⟩

theorem Run.agreed {w : World} {t : Trace} (h : Run w t) : Agreed w t := by
  refine h.induction (motive := Agreed) ?start ?move
  case start => constructor <;> intros <;> contradiction
  case move =>
    intro w t what w' hrun hm ih
    have hfits : ∀ worker c p, Prepared (⟨w, what⟩ :: t) worker c p → ∀ i',
        w'.store.instances.lookup p.instanceUrl = some i' → p.Fits i' := by
      intro worker c p hp i' row'
      rcases mem_workerHistory_cons.mp hp with rfl | hp
      · obtain ⟨-, i, i₁, -, hi₁, hfits⟩ := hm.prepared hrun
        exact Option.some.inj (hi₁.symm.trans row') ▸ hfits
      · exact hm.fits hrun.sound (ih.known worker c p hp).2 (ih.fits worker c p hp) row'
    refine ⟨?_, hfits, ?_⟩
    · intro worker c p hp
      rcases mem_workerHistory_cons.mp hp with rfl | hp
      · obtain ⟨hresource, i, -, hi, -⟩ := hm.prepared hrun
        exact ⟨hresource, Nat.lt_of_lt_of_le (hrun.sound.grounded.instances _ i hi)
          (hm.nextId_le hrun.sound)⟩
      · obtain ⟨hresource, hlt⟩ := ih.known worker c p hp
        exact ⟨hresource, Nat.lt_of_lt_of_le hlt (hm.nextId_le hrun.sound)⟩
    · intro worker worker' c c' p p' password password' hp hp' hurl hpw hpw'
      -- When one of the two is new, both fit the row it leaves behind.
      have both : ∀ i', w'.store.instances.lookup p.instanceUrl = some i' → password = password' :=
        fun i' row' => (hfits worker c p hp i' row').unique (hfits worker' c' p' hp' i' (hurl ▸ row'))
          hpw hpw'
      rcases mem_workerHistory_cons.mp hp with rfl | hold
      · obtain ⟨-, -, i', -, hi', -⟩ := hm.prepared hrun
        exact both i' hi'
      · rcases mem_workerHistory_cons.mp hp' with rfl | hold'
        · obtain ⟨-, -, i', -, hi', -⟩ := hm.prepared hrun
          exact both i' (hurl.symm ▸ hi')
        · exact ih.unique worker worker' c c' p p' password password' hold hold' hurl hpw hpw'

def bootstraps (step : StepName) : Prop := step = .instanceCreateStep03

/-- A bootstrap attempt uses the password it prepared, and promotes it after its
remote account was answered for. -/
def bootstrapRule (h : WorkerHistory) (c : ExecutionClaim) : {β : Type} → Op β → Prop
  | _, .call (.createFirstUser url password) => ∃ p : BootstrapPreparation,
      Wrote h (.prepareBootstrap c) (some p) ∧ p.instanceUrl = url ∧ p.password = some password
  | _, .call (.authenticatePreparedAdmin url password) => ∃ p : BootstrapPreparation,
      Wrote h (.prepareBootstrap c) (some p) ∧ p.instanceUrl = url ∧ p.password = some password
  | _, .transaction (.completeExecution _ .promotePassword _) => ∃ p : BootstrapPreparation,
      Wrote h (.prepareBootstrap c) (some p) ∧ ∀ password, p.password = some password →
        Returned h (Coder.bootstrapAdminAccount p.instanceUrl password)
  | _, _ => True

section Bootstrap
variable {h : WorkerHistory} {c : ExecutionClaim} {p : BootstrapPreparation}

theorem bootstrapAdminAccount_attempt {password : String} (hc : Holds h c)
    (prepared : Wrote h (.prepareBootstrap c) (some p)) (hp : p.password = some password) :
    Keeps (attempts bootstraps bootstrapRule)
      (Coder.bootstrapAdminAccount p.instanceUrl password) h := by
  refine .bind (.perform (attempts_guard hc trivial)) fun known h' hs => ?_
  have hrule : ∃ q : BootstrapPreparation, Wrote h' (.prepareBootstrap c) (some q) ∧
      q.instanceUrl = p.instanceUrl ∧ q.password = some password :=
    ⟨p, prepared.later hs, rfl, hp⟩
  refine .ite (fun _ => .perform ?_) fun _ => .perform ?_
  · exact attempts_guard (hc.later hs) hrule
  · exact attempts_guard (hc.later hs) hrule

theorem promote_attempt (hc : Holds h c) (prepared : Wrote h (.prepareBootstrap c) (some p))
    (account : ∀ password, p.password = some password →
      Returned h (Coder.bootstrapAdminAccount p.instanceUrl password)) :
    Keeps (attempts bootstraps bootstrapRule) (complete c .promotePassword) h :=
  .bind (.perform (attempts_guard hc ⟨p, prepared, account⟩)) fun _ _ _ => .pure _

theorem bootstrapAdmin_attempt (hstep : c.step = .instanceCreateStep03) :
    Keeps (attempts bootstraps bootstrapRule) (Tasks.bootstrapAdmin c) [claimEvent c] := by
  refine .perform_bind (attempts_guard Holds.start trivial) fun preparation hanswer => ?_
  cases preparation with
  | none => exact .pure _
  | some p =>
      have hupdate : p.isUpdate = false := hanswer hstep
      have hwrote : Wrote (⟨.transaction (.prepareBootstrap c), .ok (some p)⟩ :: [claimEvent c])
        (.prepareBootstrap c) (some p) := List.mem_cons_self
      have hheld : Holds (⟨.transaction (.prepareBootstrap c), .ok (some p)⟩ :: [claimEvent c]) c :=
        Holds.start.cons _
      simp only [hupdate, Bool.false_eq_true, if_false]
      cases hpw : p.password with
      | none =>
          refine promote_attempt hheld hwrote fun password h => ?_
          rw [hpw] at h
          cases h
      | some password =>
          refine .run_bind (bootstrapAdminAccount_attempt hheld hwrote hpw) fun _ run hrun => ?_
          refine promote_attempt (hheld.later (List.suffix_append _ _))
            (hwrote.later (List.suffix_append _ _)) fun password' h => ?_
          obtain rfl : password = password' := Option.some.inj (hpw.symm.trans h)
          exact ⟨[], run, _, _, rfl, hrun⟩

theorem run_bootstraps (steps : List Step) {e : Entry Op WorkerError World Change} {rest : Trace}
    (hs : e :: rest <:+ (run steps).trace) {worker : Nat} {event : WorkerEvent}
    (what : e.what = .called worker event) (held : Holds (workerHistory worker rest) c)
    (hstep : c.step = .instanceCreateStep03) :
    bootstrapRule (workerHistory worker rest) c event.op := by
  refine run_attempts bootstraps bootstrapRule ?_ steps hs what held hstep
  intro protectedUsernames fuel step c hc hin
  obtain rfl : step = .instanceCreateStep03 := hin
  exact .of_keeps (bootstrapAdmin_attempt hc) fun _ => trivial

end Bootstrap

def BootstrapCall (t : Trace) (worker : Nat) (url : InstanceUrl) (password : String) : Prop :=
  ∃ c, Holds (workerHistory worker t) c ∧ c.step = .instanceCreateStep03 ∧ ∃ a,
    (⟨.call (.createFirstUser url password), a⟩ : WorkerEvent) ∈ workerHistory worker t ∨
      (⟨.call (.authenticatePreparedAdmin url password), a⟩ : WorkerEvent) ∈ workerHistory worker t

theorem BootstrapCall.prepared {steps : List Step} {worker : Nat} {url : InstanceUrl}
    {password : String} (h : BootstrapCall (run steps).trace worker url password) :
    ∃ c p, Prepared (run steps).trace worker c p ∧ p.instanceUrl = url ∧
      p.password = some password := by
  obtain ⟨c, held, hstep, a, hcall⟩ := h
  have hrule : ∃ rest, rest <:+ (run steps).trace ∧ ∃ p : BootstrapPreparation,
      Wrote (workerHistory worker rest) (.prepareBootstrap c) (some p) ∧ p.instanceUrl = url ∧
      p.password = some password := by
    rcases hcall with hcall | hcall
    · obtain ⟨w, rest, hs, held'⟩ := held.before hcall call_ne_claimEvent
      exact ⟨rest, (List.suffix_cons _ _).trans hs, run_bootstraps steps hs rfl held' hstep⟩
    · obtain ⟨w, rest, hs, held'⟩ := held.before hcall call_ne_claimEvent
      exact ⟨rest, (List.suffix_cons _ _).trans hs, run_bootstraps steps hs rfl held' hstep⟩
  obtain ⟨rest, hs, p, hwrote, hurl, hpw⟩ := hrule
  exact ⟨c, p, hwrote.later (hs.filterMap _), hurl, hpw⟩

theorem Returned.bootstrapCall {t : Trace} {worker : Nat} {c : ExecutionClaim} {url : InstanceUrl}
    {password : String} (held : Holds (workerHistory worker t) c)
    (hstep : c.step = .instanceCreateStep03)
    (h : Returned (workerHistory worker t) (Coder.bootstrapAdminAccount url password)) :
    BootstrapCall t worker url password := by
  obtain ⟨later, events, before, a, heq, hrun⟩ := h
  have hmem : ∀ e ∈ events, e ∈ workerHistory worker t := by
    intro e he
    rw [heq]
    simp [he]
  refine ⟨c, held, hstep, ?_⟩
  cases events with
  | nil => exact hrun.elim
  | cons e es =>
      obtain ⟨known, -, hrun⟩ := hrun
      cases known with
      | error e => exact hrun.elim
      | ok known =>
          cases es with
          | nil => cases known <;> exact hrun.elim
          | cons e' es =>
              have he' := hmem e' (by simp)
              cases known with
              | false =>
                  obtain ⟨answer, rfl, -⟩ := hrun
                  exact ⟨answer, .inl he'⟩
              | true =>
                  obtain ⟨answer, rfl, -⟩ := hrun
                  exact ⟨answer, .inr he'⟩

def Store.adminPassword (s : Store) (id : UUID) : Option Sealed :=
  (s.instances.lookup id).bind fun i => i.passwordEnc

section Passwords
variable {w w' : World} {t : Trace} {what : WhatHappened} {id : UUID} {e : Sealed}

/-- A password is never replaced. -/
theorem Moved.password_kept (hm : Moved w t what w') (hs : Sound w.store) {i i' : Instance}
    (row : w.store.instances.lookup id = some i) (row' : w'.store.instances.lookup id = some i')
    (set : i.passwordEnc = some e) : i'.passwordEnc = some e := by
  rcases hm.store_cases with heq | ⟨now, heq⟩ | ⟨r, rfl, hr⟩ | ⟨worker, β, tr, a, -, allowed, hc⟩
  · rw [heq, row] at row'
    exact Option.some.inj row' ▸ set
  · simp only [heq, row] at row'
    exact Option.some.inj row' ▸ set
  · rcases hr.instance_cases row' with ⟨_, _, -, hid, -⟩ | ⟨i₀, row₀, h⟩
    · exact absurd hid (Nat.ne_of_lt (hs.grounded.instances id i row))
    · obtain rfl : i = i₀ := Option.some.inj (row.symm.trans row₀)
      rcases h with rfl | ⟨l, rfl, -⟩ <;> exact set
  · obtain ⟨i₀, row₀, he⟩ := hc.edited allowed hs.ledger row'
    obtain rfl : i = i₀ := Option.some.inj (row.symm.trans row₀)
    cases he with
    | lifecycle same | named _ same =>
        rw [same]
        exact set
    | drawn _ _ unset =>
        rw [unset] at set
        cases set
    | promoted _ _ _ candidate same =>
        rw [same]
        rcases candidate with h | ⟨h, -⟩
        · exact h.symm.trans set
        · rw [h] at set
          cases set

/-- A password is set by an owned attempt that promotes the candidate. -/
theorem Moved.password_set (hm : Moved w t what w') (hs : Sound w.store)
    (unset : w.store.adminPassword id = none) (set : w'.store.adminPassword id = some e) :
    ∃ worker c job i, what = .called worker
        ⟨.transaction (.completeExecution c .promotePassword false), .ok true⟩ ∧
      Discipline.transaction (workerHistory worker t) (.completeExecution c .promotePassword false) ∧
      w.store.ownedExecution c = some job ∧ job.resourceType = some .instance ∧
      job.resourceId = some id ∧ w.store.instances.lookup id = some i ∧ i.passwordEnc = none ∧
      i.passwordCandidateEnc = some e := by
  obtain ⟨i', row', set'⟩ := Option.bind_eq_some_iff.mp set
  have hunset : ∀ i, w.store.instances.lookup id = some i → i.passwordEnc = none := by
    intro i row
    simpa [Store.adminPassword, row] using unset
  have hold : ∀ i, w.store.instances.lookup id = some i → i'.passwordEnc ≠ i.passwordEnc := by
    intro i row h
    rw [set', hunset i row] at h
    cases h
  rcases hm.store_cases with heq | ⟨now, heq⟩ | ⟨r, rfl, hr⟩ | ⟨worker, β, tr, a, rfl, allowed, hc⟩
  · exact absurd rfl (hold i' (heq ▸ row'))
  · exact absurd rfl (hold i' (by simpa [heq] using row'))
  · rcases hr.instance_cases row' with ⟨_, _, -, -, rfl⟩ | ⟨i, row, rfl | ⟨l, rfl, -⟩⟩
    · cases set'
    · exact absurd rfl (hold _ row)
    · exact absurd rfl (hold i row)
  · obtain ⟨i, row, he⟩ := hc.edited allowed hs.ledger row'
    cases he with
    | lifecycle same | named _ same | drawn _ _ _ _ _ _ same =>
        exact absurd (congrArg Instance.passwordEnc same) (hold i row)
    | @promoted c job password owned resource _ candidate same =>
        obtain rfl : password = e :=
          Option.some.inj ((congrArg Instance.passwordEnc same).symm.trans set')
        obtain ⟨-, hcandidate⟩ := candidate.resolve_left fun h => by
          rw [hunset i row] at h
          cases h
        exact ⟨worker, c, job, i, rfl, allowed, owned, resource.1, resource.2, row, hunset i row,
          hcandidate⟩

end Passwords

/-- Administrator credentials are safe in every run. -/
theorem admin_credentials_are_safe (steps : List Step) :
    let s := (run steps).world.store
    let t := (run steps).trace
    -- All bootstrap attempts of one instance use one password.
    (∀ worker worker' id password password', BootstrapCall t worker id password →
      BootstrapCall t worker' id password' → password = password') ∧
    -- The password is set by an attempt whose own bootstrap returned, to what it used there.
    (∀ l id e, s.adminPassword id = none →
      (run (steps ++ [l])).world.store.adminPassword id = some e →
      ∃ worker reply c password, l = .act worker reply ∧ Holds (workerHistory worker t) c ∧
        c.step = .instanceCreateStep03 ∧ c.resourceId = some id ∧ (s.ownedExecution c).isSome ∧
        BootstrapCall t worker id password ∧
        Returned (workerHistory worker t) (Coder.bootstrapAdminAccount id password) ∧
        e.decrypt id = some password) ∧
    -- It is set once.
    (∀ id e, s.adminPassword id = some e → ∀ more i',
      (run (steps ++ more)).world.store.instances.lookup id = some i' → i'.passwordEnc = some e) ∧
    -- Later actions find the password and the Application's name, and no candidate.
    (∀ id i, s.instances.lookup id = some i →
      (i.action = .updating ∨ i.action = .starting ∨ i.action = .stopping ∨
        (i.action = .creating ∧ i.status = .success)) →
      i.passwordEnc ≠ none ∧ i.argocdApplicationName ≠ none ∧ i.passwordCandidateEnc = none) := by
  intro s t
  have hrun := run_reaches steps
  have hagreed := hrun.agreed
  refine ⟨?_, ?_, ?_, ?_⟩
  · intro worker worker' id password password' hcall hcall'
    obtain ⟨c, p, hp, hurl, hpw⟩ := hcall.prepared
    obtain ⟨c', p', hp', hurl', hpw'⟩ := hcall'.prepared
    exact hagreed.unique worker worker' c c' p p' password password' hp hp'
      (hurl.trans hurl'.symm) hpw hpw'
  · intro l id e unset set
    rcases run_snoc steps l with ⟨hsame, -⟩ | ⟨what, hm, hl, htrace⟩
    · rw [hsame, unset] at set
      cases set
    obtain ⟨worker, c, job, i, rfl, allowed, owned, htype, hid, row, hnone, hcandidate⟩ :=
      hm.password_set hrun.sound unset set
    obtain ⟨reply, rfl⟩ := hl
    obtain ⟨held, hconcludes⟩ := allowed
    have hstep : c.step = .instanceCreateStep03 := by
      cases hconcludes
      assumption
    have hresource : c.resourceId = some id := (hrun.owned_resource held owned htype).2.trans hid
    obtain ⟨p, hwrote, hreturned⟩ := run_bootstraps _
      ⟨[], (List.nil_append _).trans htrace.symm⟩ rfl held hstep
    obtain rfl : p.instanceUrl = id :=
      Option.some.inj ((hagreed.known worker c p hwrote).1.symm.trans hresource)
    have hfits := hagreed.fits worker c p hwrote i row
    unfold BootstrapPreparation.Fits at hfits
    cases hpw : p.password with
    | none =>
        rw [hpw] at hfits
        exact absurd hnone hfits
    | some password =>
        simp only [hpw, hnone] at hfits
        have he : e = .encrypt password p.instanceUrl := by
          simpa [hcandidate] using hfits
        have hret := hreturned password hpw
        refine ⟨worker, reply, c, password, rfl, held, hstep, hresource, by simp [s, owned],
          hret.bootstrapCall held hstep, hret, ?_⟩
        simp [he, Sealed.decrypt, Sealed.encrypt]
  · intro id e set more i' row'
    obtain ⟨i, row, hset⟩ := Option.bind_eq_some_iff.mp set
    refine run_instances (R := fun i i' => i.passwordEnc = some e → i'.passwordEnc = some e)
      (fun _ h => h) (fun h h' hset => h' (h hset)) ?_ steps more row row' hset
    intro w t what w' hrun hm id i i' row row'
    exact hm.password_kept hrun.sound row row'
  · intro id i row hready
    have hcredited := hrun.credited id i row
    obtain ⟨hpassword, hname⟩ := hcredited.ready hready
    exact ⟨hpassword, hname, hcredited.promoted hpassword⟩

end CoderManager
