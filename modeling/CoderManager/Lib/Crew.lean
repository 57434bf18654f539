import CoderManager.Lib.Pool

/-!
# Pools of bodies of different kinds

Each thread of a pool keeps the protocol of the body it was started with. What the
pool may do is then known thread by thread, with the programs forgotten.
-/
namespace Programs
variable {Op : Type → Type} {ε W R E S : Type}

def Label.spawned? : Label R E S → Option S
  | .spawn b => some b
  | _ => none

/-- The bodies that are started, in order: thread `i` runs the `i`-th of them. -/
def spawned (ls : List (Label R E S)) : List S := ls.filterMap Label.spawned?

/-- What a pool may do whose threads keep the protocols of their own bodies. -/
inductive Crew (M : Machine Op ε W R E S) (P : S → Protocol Op ε) (w₀ : W) (bs : List S) :
    W → List (Entry Op ε W E) → Prop
  | start : Crew M P w₀ bs w₀ []
  | called {w : W} {t : List (Entry Op ε W E)} {β : Type} (i : Nat) {b : S} (o : Op β) (r : R)
      (before : Crew M P w₀ bs w t) (body : bs[i]? = some b)
      (allowed : (P b).guard (history i t) o) :
      Crew M P w₀ bs (M.perform o r w).2 (⟨w, .called i ⟨o, (M.perform o r w).1⟩⟩ :: t)
  | changed {w : W} {t : List (Entry Op ε W E)} (e : E) (before : Crew M P w₀ bs w t) :
      Crew M P w₀ bs (M.react e w) (⟨w, .changed e⟩ :: t)

section Crew
variable {M : Machine Op ε W R E S} {P : S → Protocol Op ε} {w₀ w : W} {bs : List S}
  {t : List (Entry Op ε W E)}

theorem Crew.append (h : Crew M P w₀ bs w t) (later : List S) : Crew M P w₀ (bs ++ later) w t := by
  induction h with
  | start => exact .start
  | called i o r _ body allowed ih =>
      have hlt := (List.getElem?_eq_some_iff.mp body).1
      exact .called i o r ih ((List.getElem?_append_left hlt).trans body) allowed
  | changed e _ ih => exact .changed e ih

theorem Crew.entry (h : Crew M P w₀ bs w t) {e : Entry Op ε W E} {rest : List (Entry Op ε W E)}
    (hs : e :: rest <:+ t) : Crew M P w₀ bs e.before rest := by
  induction h with
  | start => simp at hs
  | called i o r before body allowed ih =>
      rcases List.suffix_cons_iff.mp hs with heq | hs
      · obtain ⟨rfl, rfl⟩ := List.cons.inj heq
        exact before
      · exact ih hs
  | changed c before ih =>
      rcases List.suffix_cons_iff.mp hs with heq | hs
      · obtain ⟨rfl, rfl⟩ := List.cons.inj heq
        exact before
      · exact ih hs

/-- Every operation on record was allowed by the body of its thread, and answered by
the machine. -/
theorem Crew.issued (h : Crew M P w₀ bs w t) {v : W} {i : Nat} {event : Event Op ε}
    {rest : List (Entry Op ε W E)} (hs : ⟨v, .called i event⟩ :: rest <:+ t) :
    (∃ b, bs[i]? = some b ∧ (P b).guard (history i rest) event.op) ∧
      ∃ r, event.result = (M.perform event.op r v).1 := by
  induction h with
  | start => simp at hs
  | called j o r _ body allowed ih =>
      rcases List.suffix_cons_iff.mp hs with heq | hs
      · obtain ⟨hentry, rfl⟩ := List.cons.inj heq
        cases hentry
        exact ⟨⟨_, body, allowed⟩, r, rfl⟩
      · exact ih hs
  | changed c _ ih =>
      rcases List.suffix_cons_iff.mp hs with heq | hs
      · obtain ⟨hentry, -⟩ := List.cons.inj heq
        cases hentry
      · exact ih hs

/-- A pool in which every thread is within the protocol of its own body. -/
structure Manned (M : Machine Op ε W R E S) (P : S → Protocol Op ε) (w₀ : W) (bs : List S)
    (s : System Op ε W E) : Prop where
  crew : Crew M P w₀ bs s.world s.trace
  length : s.threads.length = bs.length
  keeps : ∀ i p, s.threads[i]? = some p →
    ∃ b, bs[i]? = some b ∧ Keeps (P b) p (history i s.trace)
  fresh : ∀ i, bs.length ≤ i → history i s.trace = []

variable {s : System Op ε W E}

theorem Manned.act (any : ∀ b {β : Type} (o : Op β) (r : Except ε β), (P b).answers o r)
    (hs : Manned M P w₀ bs s) (i : Nat) (r : R) : Manned M P w₀ bs (M.step s (.act i r)) := by
  simp only [Machine.step]
  split
  case h_2 => exact hs
  case h_1 β o k hi =>
    obtain ⟨b, hb, hp⟩ := hs.keeps i _ hi
    have hlt : i < s.threads.length := (List.getElem?_eq_some_iff.mp hi).1
    constructor
    case crew => exact .called i o r hs.crew hb hp.1
    case length => exact List.length_set.trans hs.length
    case keeps =>
      intro j p hj
      by_cases hji : j = i
      · subst hji
        simp only [List.getElem?_set_self hlt, Option.some.injEq] at hj
        subst hj
        rw [history_called_self]
        exact ⟨b, hb, hp.2 _ (any b o _)⟩
      · rw [List.getElem?_set_ne (Ne.symm hji)] at hj
        rw [history_called_ne _ (Ne.symm hji)]
        exact hs.keeps j p hj
    case fresh =>
      intro j hj
      have hne : i ≠ j := by
        have := hs.length
        omega
      rw [history_called_ne _ hne]
      exact hs.fresh j hj

theorem Manned.spawn (bodies : ∀ b, Keeps (P b) (M.body b) []) (hs : Manned M P w₀ bs s) (b : S) :
    Manned M P w₀ (bs ++ [b]) (M.step s (.spawn b)) := by
  constructor
  case crew => exact hs.crew.append [b]
  case length => simp [Machine.step, hs.length]
  case keeps =>
    intro i p hi
    simp only [Machine.step] at hi
    rcases Nat.lt_trichotomy i s.threads.length with hlt | heq | hgt
    · rw [List.getElem?_append_left hlt] at hi
      obtain ⟨b', hb, hp⟩ := hs.keeps i p hi
      exact ⟨b', (List.getElem?_append_left (hs.length ▸ hlt)).trans hb, hp⟩
    · subst heq
      simp only [List.getElem?_concat_length, Option.some.injEq] at hi
      subst hi
      refine ⟨b, by rw [hs.length, List.getElem?_concat_length], ?_⟩
      change Keeps (P b) _ (history s.threads.length s.trace)
      rw [hs.fresh _ (Nat.le_of_eq hs.length.symm)]
      exact bodies b
    · rw [List.getElem?_eq_none (by simp; omega)] at hi
      cases hi
  case fresh =>
    intro i hi
    rw [List.length_append] at hi
    exact hs.fresh i (Nat.le_trans (Nat.le_add_right _ _) hi)

theorem Manned.change (hs : Manned M P w₀ bs s) (e : E) :
    Manned M P w₀ bs (M.step s (.change e)) := by
  constructor
  case crew => exact .changed e hs.crew
  case length => exact hs.length
  case keeps =>
    intro i p hi
    simpa only [Machine.step, history_changed] using hs.keeps i p hi
  case fresh =>
    intro i hi
    simpa only [Machine.step, history_changed] using hs.fresh i hi

/-- Bodies that keep their protocols make a crew, whatever is answered. -/
theorem Machine.run_crew (any : ∀ b {β : Type} (o : Op β) (r : Except ε β), (P b).answers o r)
    (bodies : ∀ b, Keeps (P b) (M.body b) []) (ls : List (Label R E S)) :
    Crew M P w₀ (spawned ls) (M.run w₀ ls).world (M.run w₀ ls).trace := by
  suffices h : Manned M P w₀ (spawned ls) (M.run w₀ ls) from h.crew
  induction ls using List.reverseRecOn with
  | nil => exact ⟨.start, rfl, fun i p h => by simp [run, start] at h, fun _ _ => rfl⟩
  | append_singleton ls l ih =>
      rw [Machine.run_append, spawned, List.filterMap_append]
      cases l with
      | act i r =>
          change Manned M P w₀ (spawned ls ++ []) _
          rw [List.append_nil]
          exact ih.act any i r
      | spawn b => exact ih.spawn bodies b
      | change e =>
          change Manned M P w₀ (spawned ls ++ []) _
          rw [List.append_nil]
          exact ih.change e

end Crew
end Programs
