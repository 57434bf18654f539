import CoderManager.Tasks.Workspaces

/-!
# Coder services under a protocol

The service loops issue heartbeats and routine requests only, so they keep every
protocol that permits these, whatever the number of rounds.
-/
namespace CoderManager
open Programs

/-- Requests about accounts, workspaces and deadlines that no workflow orders
against other operations. -/
def Call.isRoutine : {β : Type} → Call β → Bool
  | _, .delay _ _ | _, .beforeDeadline | _, .hasFirstUser _ | _, .createFirstUser _ _
  | _, .authenticatePreparedAdmin _ _ | _, .usernames _ | _, .workspaces _ _ _ _
  | _, .workspaceBuild _ _ => true
  | _, _ => false

def Call.isRemoval : {β : Type} → Call β → Bool
  | _, .deleteUser _ _ | _, .createWorkspaceStopBuild _ _
  | _, .createWorkspaceDeleteBuild _ _ => true
  | _, _ => false

/-- From this history on, the protocol lets routine requests and heartbeats
through, and a removal right after a heartbeat. -/
structure Permits (P : Protocol Op WorkerError) (h : List (Event Op WorkerError))
    (heartbeat : Worker Unit) : Prop where
  routine : ∀ h', h <:+ h' → ∀ {β : Type} (c : Call β), c.isRoutine = true → P.guard h' (.call c)
  beat : ∀ h', h <:+ h' → Obeys P heartbeat h'
    (fun _ h'' => ∀ {β : Type} (c : Call β), c.isRemoval = true → P.guard h'' (.call c))
    (fun _ _ => True)

section Services
variable {P : Protocol Op WorkerError} {h h' : List (Event Op WorkerError)}
  {heartbeat : Worker Unit} {url : InstanceUrl}

theorem Permits.later (hp : Permits P h heartbeat) (hs : h <:+ h') : Permits P h' heartbeat :=
  ⟨fun h'' hs' => hp.routine h'' (hs.trans hs'), fun h'' hs' => hp.beat h'' (hs.trans hs')⟩

theorem Permits.always
    (routine : ∀ h', h <:+ h' → ∀ {β : Type} (c : Call β), c.isRoutine = true ∨ c.isRemoval = true →
      P.guard h' (.call c))
    (beat : ∀ h', h <:+ h' → Keeps P heartbeat h') : Permits P h heartbeat where
  routine h' hs _ c hc := routine h' hs c (.inl hc)
  beat h' hs := (beat h' hs).extends_history.mono
    (fun _ h'' hq _ c hc => routine h'' (hs.trans hq.1) c (.inr hc)) (fun _ _ _ => trivial)

theorem Permits.heartbeat_keeps (hp : Permits P h heartbeat) : Keeps P heartbeat h :=
  (hp.beat h List.suffix_rfl).mono (fun _ _ _ => trivial) (fun _ _ _ => trivial)

theorem Permits.beat_bind {α : Type} {k : Unit → Worker α} (hp : Permits P h heartbeat)
    (rest : ∀ h', h <:+ h' →
      (∀ {β : Type} (c : Call β), c.isRemoval = true → P.guard h' (.call c)) → Keeps P (k ()) h') :
    Keeps P (heartbeat >>= k) h :=
  obeys_bind.mpr ((hp.beat h List.suffix_rfl).extends_history.mono
    (fun _ h' hq => rest h' hq.1 hq.2) (fun _ _ _ => trivial))

theorem Permits.request_keeps (hp : Permits P h heartbeat) {β : Type} (c : Call β)
    (hc : c.isRoutine = true) : Keeps P (request c) h :=
  .perform (hp.routine h List.suffix_rfl c hc)

theorem forEach_keeps {α : Type} {f : α → Worker Unit} (l : List α)
    (hf : ∀ a h', h <:+ h' → Keeps P (f a) h') : Keeps P (forEach l f) h := by
  induction l generalizing h with
  | nil => exact .pure ()
  | cons a as ih =>
      refine .bind (hf a h List.suffix_rfl) fun _ h' hs => ?_
      exact ih fun b h'' hs' => hf b h'' (hs.trans hs')

theorem foldEach_keeps_mem {α σ : Type} {f : σ → α → Worker σ} (l : List α) (s : σ)
    (hf : ∀ a ∈ l, ∀ s h', h <:+ h' → Keeps P (f s a) h') : Keeps P (foldEach l s f) h := by
  induction l generalizing h s with
  | nil => exact .pure s
  | cons a as ih =>
      obtain ⟨hfirst, hrest⟩ := List.forall_mem_cons.mp hf
      refine .bind (hfirst s h List.suffix_rfl) fun s' h' hs => ?_
      exact ih s' fun b hb s'' h'' hs' => hrest b hb s'' h'' (hs.trans hs')

theorem foldEach_keeps {α σ : Type} {f : σ → α → Worker σ} (l : List α) (s : σ)
    (hf : ∀ s a h', h <:+ h' → Keeps P (f s a) h') : Keeps P (foldEach l s f) h :=
  foldEach_keeps_mem l s fun a _ s h' hs => hf s a h' hs

theorem foldEach_obeys {α σ : Type} {f : σ → α → Worker σ}
    (inv : σ → List α → List (Event Op WorkerError) → Prop) {all : List α}
    (step : ∀ s done a rest h', all = done ++ a :: rest → inv s done h' →
      Obeys P (f s a) h' (fun s' h'' => inv s' (done ++ [a]) h'') (fun _ _ => True))
    {l done : List α} {s : σ} (hall : all = done ++ l) (start : inv s done h) :
    Obeys P (foldEach l s f) h (fun s' h' => inv s' all h') (fun _ _ => True) := by
  induction l generalizing done s h with
  | nil =>
      rw [List.append_nil] at hall
      exact hall ▸ start
  | cons a l ih =>
      refine obeys_bind.mpr ((step s done a l h hall start).mono (fun s' h' hinv => ?_)
        (fun _ _ _ => trivial))
      exact ih (by rw [hall, List.append_assoc]; rfl) hinv

theorem foldEach_holds {α σ : Type} {f : σ → α → Worker σ}
    {inv : σ → List (Event Op WorkerError) → Prop} {l : List α} {s : σ}
    (step : ∀ s a h', inv s h' → Obeys P (f s a) h' inv (fun _ _ => True)) (start : inv s h) :
    Obeys P (foldEach l s f) h inv (fun _ _ => True) :=
  foldEach_obeys (fun s _ h' => inv s h') (fun s _ a _ h' _ hinv => step s a h' hinv)
    (List.nil_append l).symm start

namespace Coder

theorem requireBeforeDeadline_keeps (hp : Permits P h heartbeat) (message : String) :
    Keeps P (requireBeforeDeadline message) h := by
  refine .bind (hp.request_keeps _ rfl) fun ready _ _ => ?_
  cases ready
  · exact .throw _
  · exact .pure ()

theorem bootstrapAdminAccount_keeps (hp : Permits P h heartbeat) (password : String) :
    Keeps P (bootstrapAdminAccount url password) h := by
  refine .bind (hp.request_keeps _ rfl) fun known h' hs => ?_
  exact .ite (fun _ => (hp.later hs).request_keeps _ rfl)
    (fun _ => (hp.later hs).request_keeps _ rfl)

theorem cleanupUserAccounts_keeps (hp : Permits P h heartbeat) (password : String)
    (expectedUsernames : List String) :
    Keeps P (cleanupUserAccounts url password expectedUsernames heartbeat) h := by
  refine .bind (hp.request_keeps _ rfl) fun known h₁ hs₁ => ?_
  have rest : ∀ h₂, h₁ <:+ h₂ → Keeps P (do
      request (.authenticatePreparedAdmin url password)
      heartbeat
      let usernames ← request (.usernames url)
      let orphaned := (usernames.dedup.filter fun u =>
        !expectedUsernames.contains u).insertionSort (· ≤ ·)
      forEach orphaned fun username => do
        heartbeat
        request (.deleteUser url username)
      return orphaned) h₂ := by
    intro h₂ hs₂
    have hp₂ := hp.later (hs₁.trans hs₂)
    refine .bind (hp₂.request_keeps _ rfl) fun _ h₃ hs₃ => ?_
    refine .bind (hp₂.later hs₃).heartbeat_keeps fun _ h₄ hs₄ => ?_
    have hp₄ := hp₂.later (hs₃.trans hs₄)
    refine .bind (hp₄.request_keeps _ rfl) fun usernames h₅ hs₅ => ?_
    refine .bind (forEach_keeps _ fun username h₆ hs₆ => ?_) fun _ _ _ => .pure _
    have hp₆ := hp₄.later (hs₅.trans hs₆)
    exact hp₆.beat_bind fun h₇ _ removal => .perform (removal _ rfl)
  cases known with
  | true => exact rest h₁ List.suffix_rfl
  | false => exact .bind ((hp.later hs₁).request_keeps _ rfl) fun _ h₂ hs₂ => rest h₂ hs₂

theorem activePages_keeps (hp : Permits P h heartbeat) (status : BuildStatus) (fuel offset : Nat)
    (found : List CoderWorkspace) :
    Keeps P (activePages url heartbeat status fuel offset found) h := by
  induction fuel generalizing h offset found with
  | zero => exact .halt
  | succ fuel ih =>
      refine .bind hp.heartbeat_keeps fun _ h₁ hs₁ => ?_
      refine .bind ((hp.later hs₁).request_keeps _ rfl) fun page h₂ hs₂ => ?_
      refine .ite (fun _ => .pure _) fun _ => ?_
      refine .ite (fun _ => .throw _) fun _ => ?_
      exact ih (hp.later (hs₁.trans hs₂)) _ _

theorem activeWorkspaces_keeps (hp : Permits P h heartbeat) (fuel : Nat) :
    Keeps P (activeWorkspaces url heartbeat fuel) h := by
  refine .bind (foldEach_keeps _ _ fun found status h' hs => ?_) fun _ _ _ => .pure _
  exact activePages_keeps (hp.later hs) _ _ _ _

theorem pollStopBuilds_keeps (hp : Permits P h heartbeat) (pending : List UUID) :
    Keeps P (pollStopBuilds url pending) h := by
  refine foldEach_keeps _ _ fun pending buildId h' hs => ?_
  refine .bind ((hp.later hs).request_keeps _ rfl) fun build _ _ => ?_
  refine .ite (fun _ => .throw _) fun _ => ?_
  refine .ite (fun _ => .pure _) fun _ => ?_
  exact .ite (fun _ => .throw _) fun _ => .pure _

theorem waitWorkspaceBuilds_keeps (hp : Permits P h heartbeat) (fuel : Nat) (pending : List UUID) :
    Keeps P (waitWorkspaceBuilds url heartbeat fuel pending) h := by
  induction fuel generalizing h pending with
  | zero => exact .halt
  | succ fuel ih =>
      refine .ite (fun _ => .pure _) fun _ => ?_
      refine .bind (requireBeforeDeadline_keeps hp _) fun _ h₁ hs₁ => ?_
      refine .bind (hp.later hs₁).heartbeat_keeps fun _ h₂ hs₂ => ?_
      have hp₂ := hp.later (hs₁.trans hs₂)
      exact .bind (pollStopBuilds_keeps hp₂ _) fun _ h₃ hs₃ => ih (hp₂.later hs₃) _

theorem stopWorkspace_keeps (hp : Permits P h heartbeat) (pending : List UUID)
    (workspace : CoderWorkspace) : Keeps P (stopWorkspace url heartbeat pending workspace) h := by
  refine hp.beat_bind fun h₁ _ removal => ?_
  refine .ite (fun _ => .pure _) fun _ => ?_
  refine .bind (.perform (removal _ rfl)) fun build _ _ => ?_
  exact .ite (fun _ => .throw _) fun _ => .pure _

theorem stopRounds_keeps (hp : Permits P h heartbeat) (fuel : Nat) (stoppedIds : List UUID) :
    Keeps P (stopRounds url heartbeat fuel stoppedIds) h := by
  induction fuel generalizing h stoppedIds with
  | zero => exact .halt
  | succ fuel ih =>
      refine .bind (requireBeforeDeadline_keeps hp _) fun _ h₁ hs₁ => ?_
      refine .bind (activeWorkspaces_keeps (hp.later hs₁) _) fun active h₂ hs₂ => ?_
      have hp₂ := hp.later (hs₁.trans hs₂)
      refine .ite (fun _ => .pure _) fun _ => ?_
      refine .bind (foldEach_keeps _ _ fun pending w h' hs =>
        stopWorkspace_keeps (hp₂.later hs) pending w) fun pending h₃ hs₃ => ?_
      refine .bind (waitWorkspaceBuilds_keeps (hp₂.later hs₃) _ _) fun _ h₄ hs₄ => ?_
      exact ih (hp₂.later (hs₃.trans hs₄)) _

theorem stopActiveWorkspaces_keeps (hp : Permits P h heartbeat) (password : String) (fuel : Nat) :
    Keeps P (stopActiveWorkspaces url password heartbeat fuel) h :=
  .bind (hp.request_keeps _ rfl) fun _ _ hs => stopRounds_keeps (hp.later hs) _ _

theorem waitForCoder_keeps (hp : Permits P h heartbeat) (password : String) (fuel : Nat) :
    Keeps P (waitForCoder url password heartbeat fuel) h := by
  induction fuel generalizing h with
  | zero => exact .halt
  | succ fuel ih =>
      refine .bind (requireBeforeDeadline_keeps hp _) fun _ h₁ hs₁ => ?_
      refine .bind (hp.later hs₁).heartbeat_keeps fun _ h₂ hs₂ => ?_
      have hp₂ := hp.later (hs₁.trans hs₂)
      refine .bind (.tryCatch (.bind (hp₂.request_keeps _ rfl) fun _ _ _ => .pure _) fun error _ _ => ?_)
        fun ready h₃ hs₃ => ?_
      · split
        · exact .pure _
        · exact .pure _
        · exact .throw _
      · refine .ite (fun _ => .pure _) fun _ => ?_
        refine .bind (requireBeforeDeadline_keeps (hp₂.later hs₃) _) fun _ h₄ hs₄ => ?_
        exact ih (hp₂.later (hs₃.trans hs₄))

theorem allPages_keeps (hp : Permits P h heartbeat) (fuel : Nat) (expectedCount : Option Nat)
    (offset : Nat) (found : List CoderWorkspace) :
    Keeps P (allPages url heartbeat fuel expectedCount offset found) h := by
  induction fuel generalizing h expectedCount offset found with
  | zero => exact .halt
  | succ fuel ih =>
      refine .bind hp.heartbeat_keeps fun _ h₁ hs₁ => ?_
      refine .bind ((hp.later hs₁).request_keeps _ rfl) fun page h₂ hs₂ => ?_
      refine .ite (fun _ => .throw _) fun _ => ?_
      refine .ite (fun _ => .throw _) fun _ => ?_
      refine .ite (fun _ => .ite (fun _ => .throw _) fun _ => .pure _) fun _ => ?_
      refine .ite (fun _ => .throw _) fun _ => ?_
      exact ih (hp.later (hs₁.trans hs₂)) _ _ _

theorem templateWorkspaces_keeps (hp : Permits P h heartbeat) (templateId : UUID) (fuel : Nat) :
    Keeps P (templateWorkspaces url templateId heartbeat fuel) h := by
  refine .bind (allPages_keeps hp _ _ _ _) fun workspaces _ _ => ?_
  exact .ite (fun _ => .throw _) fun _ => .pure _

theorem deleteWorkspace_keeps (hp : Permits P h heartbeat) (unexpected failed : String)
    (builds : List UUID × List UUID) (workspace : CoderWorkspace) :
    Keeps P (deleteWorkspace url unexpected failed heartbeat builds workspace) h := by
  refine hp.beat_bind fun h₁ _ removal => ?_
  refine .ite (fun _ => .ite (fun _ => .pure _) fun _ => .pure _) fun _ => ?_
  refine .bind (.perform (removal _ rfl)) fun build _ _ => ?_
  refine .ite (fun _ => .throw _) fun _ => ?_
  exact .ite (fun _ => .throw _) fun _ => .pure _

theorem pollDeletions_keeps (hp : Permits P h heartbeat) (blocking deleting : List UUID) :
    Keeps P (pollDeletions url blocking deleting) h := by
  refine .bind (foldEach_keeps _ _ fun blocking buildId h' hs =>
    .bind ((hp.later hs).request_keeps _ rfl) fun _ _ _ => .pure _) fun blocking h₁ hs₁ => ?_
  refine .bind (foldEach_keeps _ _ fun deleting buildId h' hs => ?_) fun _ _ _ => .pure _
  refine .bind ((hp.later (hs₁.trans hs)).request_keeps _ rfl) fun build _ _ => ?_
  refine .ite (fun _ => .throw _) fun _ => ?_
  refine .ite (fun _ => .pure _) fun _ => ?_
  exact .ite (fun _ => .throw _) fun _ => .pure _

theorem waitWorkspaceDeletions_keeps (hp : Permits P h heartbeat) (fuel : Nat)
    (builds : List UUID × List UUID) :
    Keeps P (waitWorkspaceDeletions url heartbeat fuel builds) h := by
  induction fuel generalizing h builds with
  | zero => exact .halt
  | succ fuel ih =>
      obtain ⟨blocking, deleting⟩ := builds
      refine .ite (fun _ => .pure _) fun _ => ?_
      refine .bind (requireBeforeDeadline_keeps hp _) fun _ h₁ hs₁ => ?_
      refine .bind (hp.later hs₁).heartbeat_keeps fun _ h₂ hs₂ => ?_
      have hp₂ := hp.later (hs₁.trans hs₂)
      exact .bind (pollDeletions_keeps hp₂ _ _) fun _ h₃ hs₃ => ih (hp₂.later hs₃) _

theorem deleteRounds_keeps (hp : Permits P h heartbeat)
    {scan : Nat → Worker (List CoderWorkspace)} (timedOut unexpected failed : String)
    (hscan : ∀ fuel h', h <:+ h' → Keeps P (scan fuel) h') (fuel : Nat) (deletedIds : List UUID) :
    Keeps P (deleteRounds url scan timedOut unexpected failed heartbeat fuel deletedIds) h := by
  induction fuel generalizing h deletedIds with
  | zero => exact .halt
  | succ fuel ih =>
      refine .bind (requireBeforeDeadline_keeps hp _) fun _ h₁ hs₁ => ?_
      refine .bind (hscan fuel h₁ hs₁) fun workspaces h₂ hs₂ => ?_
      have hp₂ := hp.later (hs₁.trans hs₂)
      refine .ite (fun _ => .pure _) fun _ => ?_
      refine .bind (foldEach_keeps _ _ fun builds w h' hs =>
        deleteWorkspace_keeps (hp₂.later hs) _ _ builds w) fun builds h₃ hs₃ => ?_
      refine .bind (waitWorkspaceDeletions_keeps (hp₂.later hs₃) _ _) fun _ h₄ hs₄ => ?_
      have hs := (hs₁.trans hs₂).trans (hs₃.trans hs₄)
      exact ih (hp.later hs) (fun fuel h' hs' => hscan fuel h' (hs.trans hs')) _

theorem deleteAllWorkspaces_keeps (hp : Permits P h heartbeat) (password : String) (fuel : Nat) :
    Keeps P (deleteAllWorkspaces url password heartbeat fuel) h := by
  refine .bind (waitForCoder_keeps hp _ _) fun _ h₁ hs₁ => ?_
  exact deleteRounds_keeps (hp.later hs₁) _ _ _ (fun fuel h' hs =>
    allPages_keeps (hp.later (hs₁.trans hs)) _ _ _ _) _ _

theorem deleteTemplateWorkspaces_keeps (hp : Permits P h heartbeat) (password : String)
    (templateId : UUID) (fuel : Nat) :
    Keeps P (deleteTemplateWorkspaces url password templateId heartbeat fuel) h := by
  refine .bind (waitForCoder_keeps hp _ _) fun _ h₁ hs₁ => ?_
  exact deleteRounds_keeps (hp.later hs₁) _ _ _ (fun fuel h' hs =>
    templateWorkspaces_keeps (hp.later (hs₁.trans hs)) _ _) _ _

end Coder

theorem waitTemplateVersion_keeps (hp : Permits P h heartbeat)
    (hv : ∀ h' versionId, h <:+ h' → P.guard h' (.call (.templateVersion url versionId)))
    (versionId : UUID) (fuel : Nat) :
    Keeps P (waitTemplateVersion url versionId heartbeat fuel) h := by
  induction fuel generalizing h with
  | zero => exact .halt
  | succ fuel ih =>
      refine .bind (.perform (hv h versionId List.suffix_rfl)) fun version h₁ hs₁ => ?_
      have poll : Keeps P (do
          if !(← request .beforeDeadline) then
            throw (.coderRequestError "Coder template import timed out")
          heartbeat
          waitTemplateVersion url versionId heartbeat fuel) h₁ := by
        refine .bind ((hp.later hs₁).request_keeps _ rfl) fun ready h₂ hs₂ => ?_
        have hp₂ := hp.later (hs₁.trans hs₂)
        cases ready with
        | false => exact .throw _
        | true =>
            refine .bind hp₂.heartbeat_keeps fun _ h₃ hs₃ => ?_
            have hs := (hs₁.trans hs₂).trans hs₃
            exact ih (hp.later hs) fun h' versionId hs' => hv h' versionId (hs.trans hs')
      cases version.status with
      | succeeded => exact .pure _
      | failed => exact .throw _
      | canceled => exact .throw _
      | cancelled => exact .throw _
      | pending => exact poll
      | running => exact poll
      | other name => exact poll

theorem waitWorkspaceBuild_keeps (hp : Permits P h heartbeat) (successStatus : BuildStatus)
    (fuel : Nat) (build : CoderWorkspaceBuild) :
    Keeps P (waitWorkspaceBuild url successStatus heartbeat fuel build) h := by
  induction fuel generalizing h build with
  | zero => exact .halt
  | succ fuel ih =>
      refine .ite (fun _ => .pure _) fun _ => ?_
      refine .ite (fun _ => .throw _) fun _ => ?_
      refine .bind (hp.request_keeps _ rfl) fun ready h₁ hs₁ => ?_
      cases ready with
      | false => exact .throw _
      | true =>
          refine .bind (hp.later hs₁).heartbeat_keeps fun _ h₂ hs₂ => ?_
          have hp₂ := hp.later (hs₁.trans hs₂)
          refine .bind (hp₂.request_keeps _ rfl) fun build h₃ hs₃ => ?_
          exact ih (hp₂.later hs₃) _

end Services
end CoderManager
