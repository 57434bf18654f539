import CoderManager.Lib.Pool

/-!
# Progress of pools

A program can return when some answers of its environment lead it to its end. A
pool can reach a goal when some of its steps do, all of them of an allowed kind.
Where every state short of the goal can be left for one of a lower rank, the goal
can be reached.
-/
namespace Programs
variable {Op : Type → Type} {ε W R E S α β : Type}

/-- Some answers make the program return, with the postcondition. -/
def CanReturn (M : Machine Op ε W R E S) : Prog Op ε α → W → (α → W → Prop) → Prop
  | .ret a, w, ok => ok a w
  | .raise _, _, _ => False
  | .halt, _, _ => False
  | .call o k, w, ok => ∃ r, CanReturn M (k (M.perform o r w).1) (M.perform o r w).2 ok

section Rules
variable {M : Machine Op ε W R E S} {p : Prog Op ε α} {w w' : W} {ok ok' : α → W → Prop}

theorem CanReturn.mono (h : CanReturn M p w ok) (weaker : ∀ a w, ok a w → ok' a w) :
    CanReturn M p w ok' := by
  induction p generalizing w with
  | ret a => exact weaker a w h
  | raise e => exact h
  | halt => exact h
  | call o k ih =>
      obtain ⟨r, hr⟩ := h
      exact ⟨r, ih _ hr⟩

@[simp] theorem canReturn_pure {a : α} : CanReturn M (pure a) w ok ↔ ok a w := Iff.rfl

@[simp] theorem canReturn_bind {ok : β → W → Prop} {k : α → Prog Op ε β} :
    CanReturn M (p >>= k) w ok ↔ CanReturn M p w fun a w => CanReturn M (k a) w ok := by
  change CanReturn M (p.bind k) w ok ↔ _
  induction p generalizing w with
  | ret a => exact Iff.rfl
  | raise e => exact Iff.rfl
  | halt => exact Iff.rfl
  | call o next ih => exact exists_congr fun r => ih _

theorem CanReturn.tryCatch {k : ε → Prog Op ε α} (h : CanReturn M p w ok) :
    CanReturn M (tryCatch p k) w ok := by
  change CanReturn M (p.handle k) w ok
  induction p generalizing w with
  | ret a => exact h
  | raise e => exact h.elim
  | halt => exact h
  | call o next ih =>
      obtain ⟨r, hr⟩ := h
      exact ⟨r, ih _ hr⟩

theorem CanReturn.perform {o : Op α} {a : α} (r : R) (answer : M.perform o r w = (.ok a, w'))
    (next : ok a w') : CanReturn M (.perform o) w ok := by
  refine ⟨r, ?_⟩
  rw [answer]
  exact next

theorem CanReturn.perform_bind {ok : β → W → Prop} {o : Op α} {k : α → Prog Op ε β} {a : α} (r : R)
    (answer : M.perform o r w = (.ok a, w')) (next : CanReturn M (k a) w' ok) :
    CanReturn M (Prog.perform o >>= k) w ok := canReturn_bind.mpr (.perform r answer next)

end Rules

/-- As `CanReturn`, with the operations on record, newest first. -/
def CanRecord (M : Machine Op ε W R E S) : Prog Op ε α → W → List (Event Op ε) →
    (α → W → List (Event Op ε) → Prop) → Prop
  | .ret a, w, h, ok => ok a w h
  | .raise _, _, _, _ => False
  | .halt, _, _, _ => False
  | .call o k, w, h, ok => ∃ r, CanRecord M (k (M.perform o r w).1) (M.perform o r w).2
      (⟨o, (M.perform o r w).1⟩ :: h) ok

section Records
variable {M : Machine Op ε W R E S} {p : Prog Op ε α} {w w' : W} {h : List (Event Op ε)}
  {ok ok' : α → W → List (Event Op ε) → Prop}

theorem CanReturn.records {good : α → W → Prop} (hp : CanReturn M p w good) :
    CanRecord M p w h fun a w _ => good a w := by
  induction p generalizing w h with
  | ret a => exact hp
  | raise e => exact hp
  | halt => exact hp
  | call o k ih =>
      obtain ⟨r, hr⟩ := hp
      exact ⟨r, ih _ hr⟩

theorem CanRecord.mono (hp : CanRecord M p w h ok) (weaker : ∀ a w h, ok a w h → ok' a w h) :
    CanRecord M p w h ok' := by
  induction p generalizing w h with
  | ret a => exact weaker a w h hp
  | raise e => exact hp
  | halt => exact hp
  | call o k ih =>
      obtain ⟨r, hr⟩ := hp
      exact ⟨r, ih _ hr⟩

theorem canRecord_bind {ok : β → W → List (Event Op ε) → Prop} {k : α → Prog Op ε β} :
    CanRecord M (p >>= k) w h ok ↔ CanRecord M p w h fun a w h => CanRecord M (k a) w h ok := by
  change CanRecord M (p.bind k) w h ok ↔ _
  induction p generalizing w h with
  | ret a => exact Iff.rfl
  | raise e => exact Iff.rfl
  | halt => exact Iff.rfl
  | call o next ih => exact exists_congr fun r => ih _

theorem CanRecord.tryCatch {k : ε → Prog Op ε α} (hp : CanRecord M p w h ok) :
    CanRecord M (tryCatch p k) w h ok := by
  change CanRecord M (p.handle k) w h ok
  induction p generalizing w h with
  | ret a => exact hp
  | raise e => exact hp.elim
  | halt => exact hp
  | call o next ih =>
      obtain ⟨r, hr⟩ := hp
      exact ⟨r, ih _ hr⟩

theorem CanRecord.perform {o : Op α} {a : α} (r : R) (answer : M.perform o r w = (.ok a, w'))
    (next : ok a w' (⟨o, .ok a⟩ :: h)) : CanRecord M (.perform o) w h ok := by
  refine ⟨r, ?_⟩
  rw [answer]
  exact next

end Records

def Allows (M : Machine Op ε W R E S) (allowed : System Op ε W E → Label R E S → Prop) :
    System Op ε W E → List (Label R E S) → Prop
  | _, [] => True
  | s, l :: ls => allowed s l ∧ Allows M allowed (M.step s l) ls

def CanReach (M : Machine Op ε W R E S) (allowed : System Op ε W E → Label R E S → Prop)
    (s : System Op ε W E) (goal : System Op ε W E → Prop) : Prop :=
  ∃ ls : List (Label R E S), Allows M allowed s ls ∧ goal (ls.foldl M.step s)

section Steps
variable {M : Machine Op ε W R E S} {allowed : System Op ε W E → Label R E S → Prop}
  {s : System Op ε W E} {goal goal' : System Op ε W E → Prop}

theorem allows_append {ls ls' : List (Label R E S)} :
    Allows M allowed s (ls ++ ls') ↔ Allows M allowed s ls ∧ Allows M allowed (ls.foldl M.step s) ls' := by
  induction ls generalizing s with
  | nil => exact (and_iff_right trivial).symm
  | cons l ls ih => exact (and_congr_right fun _ => ih).trans and_assoc.symm

theorem Machine.threads_step (l : Label R E S) : s.threads.length ≤ (M.step s l).threads.length := by
  cases l with
  | act i r =>
      simp only [step]
      split
      · exact Nat.le_of_eq List.length_set.symm
      · exact Nat.le_refl _
  | spawn b => simp [step]
  | change e => exact Nat.le_refl _

theorem Machine.threads_foldl (ls : List (Label R E S)) :
    s.threads.length ≤ (ls.foldl M.step s).threads.length := by
  induction ls generalizing s with
  | nil => exact Nat.le_refl _
  | cons l ls ih => exact Nat.le_trans (M.threads_step l) ih

namespace CanReach

theorem now (h : goal s) : CanReach M allowed s goal := ⟨[], trivial, h⟩

theorem step {l : Label R E S} (hl : allowed s l) (h : CanReach M allowed (M.step s l) goal) :
    CanReach M allowed s goal := by
  obtain ⟨ls, hls, hgoal⟩ := h
  exact ⟨l :: ls, ⟨hl, hls⟩, hgoal⟩

theorem trans (h : CanReach M allowed s goal)
    (next : ∀ s, goal s → CanReach M allowed s goal') : CanReach M allowed s goal' := by
  obtain ⟨ls, hls, hgoal⟩ := h
  obtain ⟨ls', hls', hgoal'⟩ := next _ hgoal
  refine ⟨ls ++ ls', allows_append.mpr ⟨hls, hls'⟩, ?_⟩
  rw [List.foldl_append]
  exact hgoal'

theorem mono (h : CanReach M allowed s goal) (weaker : ∀ s, goal s → goal' s) :
    CanReach M allowed s goal' := h.trans fun s hs => .now (weaker s hs)

theorem runs {w₀ : W} {ls : List (Label R E S)} {n : Nat} (h : CanReach M allowed (M.run w₀ ls) goal)
    (started : n ≤ (M.run w₀ ls).threads.length) :
    CanReach M allowed (M.run w₀ ls) fun s =>
      ((∃ ls', s = M.run w₀ ls') ∧ n ≤ s.threads.length) ∧ goal s := by
  obtain ⟨more, hmore, hgoal⟩ := h
  exact ⟨more, hmore, ⟨⟨ls ++ more, (M.run_append ls more).symm⟩,
    Nat.le_trans started (M.threads_foldl more)⟩, hgoal⟩

/-- A thread that can return can be run to its end. -/
theorem thread (i : Nat) {p : Prog Op ε Unit} {good : W → List (Event Op ε) → Prop}
    (hi : s.threads[i]? = some p)
    (hp : CanRecord M p s.world (history i s.trace) fun _ w h => good w h)
    (acts : ∀ s r, allowed s (.act i r)) :
    CanReach M allowed s fun s' => good s'.world (history i s'.trace) := by
  induction p generalizing s with
  | ret a => exact .now hp
  | raise e => exact hp.elim
  | halt => exact hp.elim
  | call o k ih =>
      obtain ⟨r, hr⟩ := hp
      have hlt : i < s.threads.length := (List.getElem?_eq_some_iff.mp hi).1
      refine .step (acts s r) (ih (M.perform o r s.world).1 ?_ ?_)
      · simp only [Machine.step, hi]
        exact List.getElem?_set_self hlt
      · simpa only [Machine.step, hi, history_called_self] using hr

theorem spawn {b : S} {good : W → List (Event Op ε) → Prop} (hb : allowed s (.spawn b))
    (hp : CanRecord M (M.body b) s.world (history s.threads.length s.trace) fun _ w h => good w h)
    (acts : ∀ s' r, allowed s' (.act s.threads.length r)) :
    CanReach M allowed s fun s' => good s'.world (history s.threads.length s'.trace) := by
  refine .step hb (thread s.threads.length ?_ hp acts)
  simp [Machine.step]

/-- Where each state short of the goal can be left for one of a lower rank, the
goal can be reached. -/
theorem of_rank (inv : System Op ε W E → Prop) (rank : System Op ε W E → Nat)
    (descends : ∀ s, inv s → CanReach M allowed s fun s' =>
      goal s' ∨ (inv s' ∧ rank s' < rank s)) (start : inv s) : CanReach M allowed s goal := by
  obtain ⟨n, hn⟩ : ∃ n, rank s = n := ⟨_, rfl⟩
  induction n using Nat.strongRecOn generalizing s with
  | ind n ih =>
      refine (descends s start).trans fun s' hs' => ?_
      rcases hs' with hgoal | ⟨hinv, hlower⟩
      · exact .now hgoal
      · exact ih _ (hn ▸ hlower) hinv rfl

end CanReach
end Steps
end Programs
