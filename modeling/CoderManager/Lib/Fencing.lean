import CoderManager.Lib.Lease

/-!
# Fencing

An attempt that lost its lease never gets it back, and a job its resource no
longer names is frozen. Both are properties of one step, carried along runs.
-/
namespace Leases

variable {J K N A T S : Type} [DecidableEq J] [DecidableEq K]
  {C : Catalogue K N A T S} {l l' : Ledger J K N A T S}

/-- The token was handed out: its job id is used up and, while the row exists,
has reached its attempt. -/
def Issued (l : Ledger J K N A T S) (c : Token J T S) : Prop :=
  c.job ∈ l.used ∧ ∀ b, l.jobs c.job = some b → c.attempt ≤ b.attempt

def Detached (l : Ledger J K N A T S) (j : J) : Prop :=
  ∃ b k, l.jobs j = some b ∧ b.owner = some k ∧ ∀ c, l.owners k = some c → c.jobId ≠ some j

/-- One job before and after a write made while its resource names it: a claim
opens the next attempt, and every other write leaves the attempt as it is. -/
def Renewed (b b' : Job K N T S) : Prop :=
  b'.name = b.name ∧ b'.owner = b.owner ∧
    ((b.status ≠ .running ∧ b'.attempt = b.attempt + 1 ∧ b'.task = b.task ∧ b'.step = b.step) ∨
      (b.status = .running ∧ b'.attempt = b.attempt ∧
        (b'.status ≠ .running ∨ (b'.task = b.task ∧ b'.step = b.step))))

/-- What a step does to one job: nothing, a first write under a new id, a write
made while its resource names it, or its removal when that resource is settled. -/
theorem Step.job_cases (hs : Step C l l') (j : J) :
    l'.jobs j = l.jobs j ∨ j ∉ l.used ∨
      (∃ b b', l.jobs j = some b ∧ l'.jobs j = some b' ∧ Matches C l j b ∧ Renewed b b') ∨
      (l'.jobs j = none ∧ ∃ k c, l.owners k = some c ∧ c.jobId = some j ∧ c.status = .success) := by
  have other : ∀ {i : J} {b : Job K N T S} {f : Lifecycle J A S → Lifecycle J A S}, j ≠ i →
      (l.put i b f).jobs j = l.jobs j := fun hji => if_neg hji
  cases hs with
  | @claim i b at_ row idle current =>
      by_cases hji : j = i
      · subst hji
        refine .inr (.inr (.inl ⟨b, _, row, l.put_jobs_self _ _ _, current, rfl, rfl,
          .inl ⟨?_, rfl, rfl, rfl⟩⟩))
        rcases idle with h | h <;> simp [h]
      · exact .inl (other hji)
  | @heartbeat i b at_ row running current =>
      by_cases hji : j = i
      · subst hji
        exact .inr (.inr (.inl ⟨b, _, row, l.put_jobs_self _ _ _, current, rfl, rfl,
          .inr ⟨running, rfl, .inr ⟨rfl, rfl⟩⟩⟩))
      · exact .inl (other hji)
  | @release i b s row running current idle =>
      by_cases hji : j = i
      · subst hji
        refine .inr (.inr (.inl ⟨b, _, row, l.put_jobs_self _ _ _, current, rfl, rfl,
          .inr ⟨running, rfl, .inl ?_⟩⟩))
        rcases idle with h | h <;> simp [h]
      · exact .inl (other hji)
  | @advance i b task step row running current stage =>
      by_cases hji : j = i
      · subst hji
        exact .inr (.inr (.inl ⟨b, _, row, l.put_jobs_self _ _ _, current, rfl, rfl,
          .inr ⟨running, rfl, .inl (by simp)⟩⟩))
      · exact .inl (other hji)
  | @complete i b row running current =>
      by_cases hji : j = i
      · subst hji
        exact .inr (.inr (.inl ⟨b, _, row, l.put_jobs_self _ _ _, current, rfl, rfl,
          .inr ⟨running, rfl, .inl (by simp)⟩⟩))
      · exact .inl (other hji)
  | @stage i k name a task step fresh _ _ _ _ =>
      by_cases hji : j = i
      · exact .inr (.inl (hji ▸ fresh))
      · exact .inl (by simp [Ledger.assign, Ledger.enqueue, hji])
  | @system i name task step fresh _ =>
      by_cases hji : j = i
      · exact .inr (.inl (hji ▸ fresh))
      · exact .inl (by simp [Ledger.enqueue, hji])
  | @discard k c i row settled job =>
      by_cases hji : j = i
      · subst hji
        exact .inr (.inr (.inr ⟨by simp [Ledger.discard], k, c, row, job, settled⟩))
      · exact .inl (by simp [Ledger.discard, Ledger.assign, hji])
  | enrol k a fresh => exact .inl rfl
  | rename a row settled => exact .inl rfl
  | drop keep => exact .inl rfl
  | spend ids => exact .inl rfl

/-- One lifecycle before and after a step that leaves its job in place: the
action is kept, and the step too unless the job stops running. A settled
lifecycle may also be renamed. -/
def Followed (l' : Ledger J K N A T S) (j : J) (c c' : Lifecycle J A S) : Prop :=
  c.status = .success ∨ (c'.action = c.action ∧
    (c'.step = c.step ∨ ∃ b', l'.jobs j = some b' ∧ b'.status ≠ .running))

/-- A resource comes to name a job only when the job is new. -/
theorem Step.owner_cases (hs : Step C l l') {k : K} {c' : Lifecycle J A S} {j : J}
    (hk : l'.owners k = some c') (hj : c'.jobId = some j) :
    j ∉ l.used ∨ ∃ c, l.owners k = some c ∧ c.jobId = some j ∧ Followed l' j c c' := by
  have same : l.owners k = some c' →
      ∃ c, l.owners k = some c ∧ c.jobId = some j ∧ Followed l' j c c' :=
    fun hc => ⟨c', hc, hj, .inr ⟨rfl, .inl rfl⟩⟩
  -- A write to the resource's own job changes its lifecycle by `f`.
  have written : ∀ {i : J} {b b' : Job K N T S} {f : Lifecycle J A S → Lifecycle J A S},
      Matches C l i b → b'.owner = b.owner → (l.put i b' f).owners k = some c' →
      l.owners k = some c' ∨ ∃ c, l.owners k = some c ∧ c.jobId = some i ∧ f c = c' := by
    intro i b b' f current howner hk
    by_cases ho : b'.owner = some k
    · simp only [Ledger.put, ho, if_true, Option.map_eq_some_iff] at hk
      obtain ⟨c, hc, hf⟩ := hk
      obtain ⟨c₁, hc₁, hjob, -⟩ := current k (howner ▸ ho)
      rw [hc, Option.some.injEq] at hc₁
      exact .inr ⟨c, hc, hc₁ ▸ hjob, hf⟩
    · simp only [Ledger.put, ho, if_false] at hk
      exact .inl hk
  cases hs with
  | claim at_ row idle current =>
      rcases written current rfl hk with h | ⟨c, hc, -, rfl⟩
      · exact .inr (same h)
      · exact .inr ⟨c, hc, hj, .inr ⟨rfl, .inl rfl⟩⟩
  | heartbeat at_ row running current =>
      rcases written current rfl hk with h | ⟨c, hc, -, rfl⟩
      · exact .inr (same h)
      · exact .inr (same hc)
  | release row running current idle =>
      rcases written current rfl hk with h | ⟨c, hc, -, rfl⟩
      · exact .inr (same h)
      · exact .inr ⟨c, hc, hj, .inr ⟨rfl, .inl rfl⟩⟩
  | advance row running current stage =>
      rcases written current rfl hk with h | ⟨c, hc, hjob, rfl⟩
      · exact .inr (same h)
      · have hij := Option.some.inj (hj.symm.trans hjob)
        subst hij
        exact .inr ⟨c, hc, hj, .inr ⟨rfl, .inr ⟨_, l.put_jobs_self _ _ _, by simp⟩⟩⟩
  | complete row running current =>
      rcases written current rfl hk with h | ⟨c, hc, hjob, rfl⟩
      · exact .inr (same h)
      · have hij := Option.some.inj (hj.symm.trans hjob)
        subst hij
        exact .inr ⟨c, hc, hj, .inr ⟨rfl, .inr ⟨_, l.put_jobs_self _ _ _, by simp⟩⟩⟩
  | @stage i k' name a task step fresh _ _ _ _ =>
      by_cases hkk : k = k'
      · simp only [Ledger.assign, hkk, if_true, Option.some.injEq] at hk
        subst hk
        exact .inl (Option.some.inj hj ▸ fresh)
      · simp only [Ledger.assign, hkk, if_false] at hk
        exact .inr (same hk)
  | system fresh stage => exact .inr (same hk)
  | enrol k' a fresh =>
      by_cases hkk : k = k'
      · simp only [Ledger.assign, hkk, if_true, Option.some.injEq] at hk
        subst hk
        cases hj
      · simp only [Ledger.assign, hkk, if_false] at hk
        exact .inr (same hk)
  | @rename k' c a row settled =>
      by_cases hkk : k = k'
      · simp only [Ledger.assign, hkk, if_true, Option.some.injEq] at hk
        subst hk
        exact .inr ⟨c, hkk ▸ row, hj, .inl settled⟩
      · simp only [Ledger.assign, hkk, if_false] at hk
        exact .inr (same hk)
  | @discard k' c i row settled job =>
      by_cases hkk : k = k'
      · simp only [Ledger.discard, Ledger.assign, hkk, if_true, Option.some.injEq] at hk
        subst hk
        cases hj
      · simp only [Ledger.discard, Ledger.assign, hkk, if_false] at hk
        exact .inr (same hk)
  | drop keep =>
      by_cases hkeep : keep k = true
      · simp only [Ledger.keep, hkeep, if_true] at hk
        exact .inr (same hk)
      · simp [Ledger.keep, hkeep] at hk
  | spend ids => exact .inr (same hk)

theorem Step.used_mono (hs : Step C l l') : l.used ⊆ l'.used := by
  cases hs with
  | stage | system => exact fun _ h => .inr h
  | spend ids => exact fun _ h => .inl h
  | claim | heartbeat | release | advance | complete | enrol | rename | discard | drop => exact fun _ h => h

/-- A row under a used id was there before, under the same name and owner, and
its attempt has not gone down. -/
theorem Step.job_origin (hs : Step C l l') {j : J} {b' : Job K N T S} (hj : l'.jobs j = some b')
    (hu : j ∈ l.used) :
    ∃ b, l.jobs j = some b ∧ b'.name = b.name ∧ b'.owner = b.owner ∧ b.attempt ≤ b'.attempt := by
  rcases hs.job_cases j with hsame | hnew | ⟨b, b₁, hb, hb₁, -, hn, ho, hatt⟩ | ⟨hnone, -⟩
  · exact ⟨b', hsame ▸ hj, rfl, rfl, Nat.le_refl _⟩
  · exact absurd hu hnew
  · rw [hj, Option.some.injEq] at hb₁
    subst hb₁
    refine ⟨b, hb, hn, ho, ?_⟩
    rcases hatt with ⟨-, h, -⟩ | ⟨-, h, -⟩ <;> omega
  · rw [hj] at hnone
    cases hnone

theorem Steps.job_origin (hs : Steps C l l') {j : J} {b' : Job K N T S} (hj : l'.jobs j = some b')
    (hu : j ∈ l.used) :
    ∃ b, l.jobs j = some b ∧ b'.name = b.name ∧ b'.owner = b.owner ∧ b.attempt ≤ b'.attempt := by
  induction hs using Relation.ReflTransGen.head_induction_on with
  | refl => exact ⟨b', hj, rfl, rfl, Nat.le_refl _⟩
  | head hstep _ ih =>
      obtain ⟨b₁, hb₁, hn₁, ho₁, ha₁⟩ := ih (hstep.used_mono hu)
      obtain ⟨b, hb, hn, ho, ha⟩ := hstep.job_origin hb₁ hu
      exact ⟨b, hb, hn₁.trans hn, ho₁.trans ho, Nat.le_trans ha ha₁⟩

theorem Steps.used_mono (hs : Steps C l l') : l.used ⊆ l'.used := by
  induction hs with
  | refl => exact fun _ h => h
  | tail _ hstep ih => exact ih.trans hstep.used_mono

theorem Step.settled_job (hs : Step C l l') {j : J} {b b' : Job K N T S} (hj : l.jobs j = some b)
    (settled : b.status = .success) (hu : j ∈ l.used) (hj' : l'.jobs j = some b') : b' = b := by
  have same : l'.jobs j = l.jobs j → b' = b := fun h =>
    Option.some.inj ((h ▸ hj').symm.trans hj)
  -- A job that is put has another status.
  have put : ∀ {i : J} {b₁ b₂ : Job K N T S} {f : Lifecycle J A S → Lifecycle J A S},
      l.jobs i = some b₁ → b₁.status ≠ .success → l' = l.put i b₂ f → b' = b := by
    intro i b₁ b₂ f row hne heq
    by_cases hji : j = i
    · subst hji
      exact absurd (Option.some.inj (row.symm.trans hj) ▸ settled) hne
    · exact same (heq ▸ if_neg hji)
  cases hs with
  | claim at_ row idle current =>
      refine put row (fun h => ?_) rfl
      rcases idle with h' | h' <;> rw [h] at h' <;> cases h'
  | heartbeat at_ row running current | release row running | advance row running
  | complete row running => exact put row (fun h => by rw [h] at running; cases running) rfl
  | @stage i k name a task step fresh =>
      have hji : j ≠ i := fun h => fresh (h ▸ hu)
      exact same (by simp [Ledger.assign, Ledger.enqueue, hji])
  | @system i name task step fresh =>
      have hji : j ≠ i := fun h => fresh (h ▸ hu)
      exact same (by simp [Ledger.enqueue, hji])
  | @discard k c i row _ job =>
      by_cases hji : j = i
      · subst hji
        simp [Ledger.discard] at hj'
      · exact same (by simp [Ledger.discard, Ledger.assign, hji])
  | enrol | rename | drop | spend => exact same rfl

theorem Steps.settled_job (hs : Steps C l l') {j : J} {b b' : Job K N T S} (hj : l.jobs j = some b)
    (settled : b.status = .success) (hu : j ∈ l.used) (hj' : l'.jobs j = some b') : b' = b := by
  induction hs using Relation.ReflTransGen.head_induction_on with
  | refl => exact Option.some.inj (hj'.symm.trans hj)
  | head hstep hrest ih =>
      obtain ⟨b₁, hb₁, -⟩ := Steps.job_origin hrest hj' (hstep.used_mono hu)
      obtain rfl := hstep.settled_job hj settled hu hb₁
      exact ih hb₁ (hstep.used_mono hu)

theorem Issued.step {c : Token J T S} (h : Issued l c) (hs : Step C l l') : Issued l' c := by
  refine ⟨hs.used_mono h.1, fun b' hb' => ?_⟩
  obtain ⟨b, hb, -, -, hatt⟩ := hs.job_origin hb' h.1
  exact Nat.le_trans (h.2 b hb) hatt

theorem Issued.steps {c : Token J T S} (h : Issued l c) (hs : Steps C l l') : Issued l' c := by
  induction hs with
  | refl => exact h
  | tail _ hstep ih => exact ih.step hstep

omit [DecidableEq J] [DecidableEq K] in
theorem Owned.issued (hl : Consistent C l) {c : Token J T S} (h : Owned C l c) : Issued l c := by
  obtain ⟨b, hb, -, -, hatt, -, -⟩ := h
  refine ⟨hl.known _ _ hb, fun b' hb' => ?_⟩
  rw [hb, Option.some.injEq] at hb'
  exact hb' ▸ Nat.le_of_eq hatt.symm

/-- A lease handed out earlier and current after a step was current before it:
ownership is never regained. -/
theorem Owned.of_step (hl : Consistent C l) (hs : Step C l l') {c : Token J T S}
    (hi : Issued l c) (ho : Owned C l' c) : Owned C l c := by
  obtain ⟨b', hb', htask, hstep, hatt, hrun, hm⟩ := ho
  obtain ⟨b₀, hb₀, hname, howner, -⟩ := hs.job_origin hb' hi.1
  have hle := hi.2 b₀ hb₀
  -- The job row is the one the lease was current on.
  obtain ⟨ht₀, hst₀, ha₀, hr₀⟩ : b₀.task = c.task ∧ b₀.step = c.step ∧ b₀.attempt = c.attempt ∧
      b₀.status = .running := by
    rcases hs.job_cases c.job with hsame | hnew | ⟨b₁, b₂, hb₁, hb₂, -, -, -, hatt'⟩ | ⟨hnone, -⟩
    · rw [hb', hb₀, Option.some.injEq] at hsame
      subst hsame
      exact ⟨htask, hstep, hatt, hrun⟩
    · exact absurd hi.1 hnew
    · rw [hb₀, Option.some.injEq] at hb₁
      rw [hb', Option.some.injEq] at hb₂
      subst hb₁ hb₂
      rcases hatt' with ⟨-, h, -⟩ | ⟨hr, ha, hns | ⟨ht, hst⟩⟩
      · omega
      · exact absurd hrun hns
      · exact ⟨ht ▸ htask, hst ▸ hstep, ha ▸ hatt, hr⟩
    · rw [hb'] at hnone
      cases hnone
  refine ⟨b₀, hb₀, ht₀, hst₀, ha₀, hr₀, fun k hk => ?_⟩
  obtain ⟨c', hc', hjob, hact, hst⟩ := hm k (howner.trans hk)
  rcases hs.owner_cases hc' hjob with hnew | ⟨c₁, hc₁, hjob₁, hrest⟩
  · exact absurd hi.1 hnew
  · obtain ⟨b₁, hb₁, -, hstat⟩ := hl.current k c₁ c.job hc₁ hjob₁
    rw [hb₀, Option.some.injEq] at hb₁
    subst hb₁
    have hnot : c₁.status ≠ .success := by
      rw [← hstat, hr₀]
      decide
    obtain ⟨haction, hstep₁⟩ := hrest.resolve_left hnot
    refine ⟨c₁, hc₁, hjob₁, by rw [← hname, hact, haction], ?_⟩
    rcases hstep₁ with hs₁ | ⟨b₂, hb₂, hb₂run⟩
    · rw [← hs₁, hst, hstep, hst₀]
    · rw [hb', Option.some.injEq] at hb₂
      subst hb₂
      exact absurd hrun hb₂run

theorem Owned.of_steps (hl : Consistent C l) (hs : Steps C l l') {c : Token J T S}
    (hi : Issued l c) (ho : Owned C l' c) : Owned C l c := by
  induction hs with
  | refl => exact ho
  | @tail m m' hsteps hstep ih =>
      exact ih (ho.of_step (hl.steps hsteps) hstep (hi.steps hsteps))

omit [DecidableEq J] [DecidableEq K] in
theorem Owned.unique {c c' : Token J T S} (h : Owned C l c) (h' : Owned C l c') {k : K}
    {b b' : Job K N T S} (hb : l.jobs c.job = some b) (hb' : l.jobs c'.job = some b')
    (hk : b.owner = some k) (hk' : b'.owner = some k) : c = c' := by
  obtain ⟨b₁, hb₁, ht, hs, ha, -, hm⟩ := h
  obtain ⟨b₂, hb₂, ht', hs', ha', -, hm'⟩ := h'
  rw [hb, Option.some.injEq] at hb₁
  rw [hb', Option.some.injEq] at hb₂
  subst hb₁ hb₂
  obtain ⟨d, hd, hj, -⟩ := hm k hk
  obtain ⟨d', hd', hj', -⟩ := hm' k hk'
  rw [hd, Option.some.injEq] at hd'
  subst hd'
  have hjob : c.job = c'.job := Option.some.inj (hj.symm.trans hj')
  rw [hjob, hb', Option.some.injEq] at hb
  subst hb
  cases c
  cases c'
  simp_all

/-- A job its resource does not name is never named again and never written. -/
theorem Detached.step (hl : Consistent C l) {j : J} (h : Detached l j) (hs : Step C l l') :
    Detached l' j ∧ l'.jobs j = l.jobs j := by
  obtain ⟨b, k, hb, hk, hno⟩ := h
  have hu := hl.known j b hb
  have hsame : l'.jobs j = l.jobs j := by
    rcases hs.job_cases j with hsame | hnew | ⟨b₁, b₂, hb₁, -, hm, -⟩ | ⟨-, k', c, hc, hjob, -⟩
    · exact hsame
    · exact absurd hu hnew
    · rw [hb, Option.some.injEq] at hb₁
      subst hb₁
      obtain ⟨c, hc, hjob, -⟩ := hm k hk
      exact absurd hjob (hno c hc)
    · have hk' := hl.owner_eq hc hjob hb
      rw [hk, Option.some.injEq] at hk'
      subst hk'
      exact absurd hjob (hno c hc)
  refine ⟨⟨b, k, hsame.trans hb, hk, ?_⟩, hsame⟩
  intro c hc hjob
  rcases hs.owner_cases hc hjob with hnew | ⟨c₁, hc₁, hjob₁, -⟩
  · exact hnew hu
  · exact hno c₁ hc₁ hjob₁

theorem Detached.steps (hl : Consistent C l) {j : J} (h : Detached l j) (hs : Steps C l l') :
    Detached l' j ∧ l'.jobs j = l.jobs j := by
  induction hs with
  | refl => exact ⟨h, rfl⟩
  | tail hsteps hstep ih =>
      obtain ⟨hd, he⟩ := ih
      obtain ⟨hd', he'⟩ := hd.step (hl.steps hsteps) hstep
      exact ⟨hd', he'.trans he⟩

end Leases
