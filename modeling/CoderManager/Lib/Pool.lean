import CoderManager.Lib.Program
import Mathlib.Data.List.Induction

/-!
# Pools of programs over one shared state

Any number of program bodies run over one state, one atomic operation at a
time, interleaved with changes of the environment. The trace records every
operation and every change with the state it met. A thread that is never
scheduled again is a crashed worker, so no rule is needed for crashes.
-/
namespace Programs

/-- The atomic operations, the environment's changes and the bodies that may be
started. `R` is what the environment chooses at each operation. -/
structure Machine (Op : Type → Type) (ε W R E S : Type) where
  perform : {β : Type} → Op β → R → W → Except ε β × W
  react : E → W → W
  body : S → Prog Op ε Unit

inductive Label (R E S : Type) where
  | act (thread : Nat) (reply : R)
  | spawn (body : S)
  | change (e : E)

inductive Happening (Op : Type → Type) (ε E : Type) : Type 1 where
  | called (thread : Nat) (event : Event Op ε)
  | changed (e : E)

structure Entry (Op : Type → Type) (ε W E : Type) : Type 1 where
  before : W
  what : Happening Op ε E

structure System (Op : Type → Type) (ε W E : Type) : Type 1 where
  world : W
  threads : List (Prog Op ε Unit)
  trace : List (Entry Op ε W E)

variable {Op : Type → Type} {ε W R E S : Type}

/-- One thread's own operations, newest first. -/
def history (i : Nat) (t : List (Entry Op ε W E)) : List (Event Op ε) :=
  t.filterMap (fun e => match e.what with
    | .called j event => if j = i then some event else none
    | .changed _ => none)

def Machine.step (M : Machine Op ε W R E S) (s : System Op ε W E) :
    Label R E S → System Op ε W E
  | .act i r =>
      match s.threads[i]? with
      | some (.call o k) =>
          let answer := M.perform o r s.world
          { world := answer.2
            threads := s.threads.set i (k answer.1)
            trace := ⟨s.world, .called i ⟨o, answer.1⟩⟩ :: s.trace }
      | _ => s
  | .spawn b => { s with threads := s.threads ++ [M.body b] }
  | .change e =>
      { s with world := M.react e s.world, trace := ⟨s.world, .changed e⟩ :: s.trace }

def Machine.start (w : W) : System Op ε W E := ⟨w, [], []⟩

def Machine.run (M : Machine Op ε W R E S) (w : W) (ls : List (Label R E S)) : System Op ε W E :=
  ls.foldl M.step (Machine.start w)

/-- What the pool may do, with the bodies forgotten: any thread issues any
operation its own history allows. -/
inductive Reaches (M : Machine Op ε W R E S) (P : Protocol Op ε) (w₀ : W) :
    W → List (Entry Op ε W E) → Prop
  | start : Reaches M P w₀ w₀ []
  | called {w : W} {t : List (Entry Op ε W E)} {β : Type} (i : Nat) (o : Op β) (r : R)
      (before : Reaches M P w₀ w t) (allowed : P.guard (history i t) o) :
      Reaches M P w₀ (M.perform o r w).2 (⟨w, .called i ⟨o, (M.perform o r w).1⟩⟩ :: t)
  | changed {w : W} {t : List (Entry Op ε W E)} (e : E) (before : Reaches M P w₀ w t) :
      Reaches M P w₀ (M.react e w) (⟨w, .changed e⟩ :: t)

section History
variable {t : List (Entry Op ε W E)} {w : W}

@[simp] theorem history_nil (i : Nat) : history i ([] : List (Entry Op ε W E)) = [] := rfl

@[simp] theorem history_called_self (i : Nat) (e : Event Op ε) :
    history i (⟨w, .called i e⟩ :: t) = e :: history i t := by simp [history]

theorem history_called_ne {i j : Nat} (e : Event Op ε) (h : j ≠ i) :
    history i (⟨w, .called j e⟩ :: t) = history i t := by simp [history, h]

@[simp] theorem history_changed (i : Nat) (e : E) :
    history i (⟨w, .changed e⟩ :: t) = history i t := by simp [history]

theorem mem_history {i : Nat} {e : Event Op ε} :
    e ∈ history i t ↔ ∃ w, (⟨w, .called i e⟩ : Entry Op ε W E) ∈ t := by
  simp only [history, List.mem_filterMap]
  constructor
  · rintro ⟨⟨w, what⟩, hmem, hw⟩
    cases what with
    | called j event =>
        by_cases hj : j = i
        · subst hj
          simp only [if_true, Option.some.injEq] at hw
          exact ⟨w, hw ▸ hmem⟩
        · simp [hj] at hw
    | changed e => simp at hw
  · rintro ⟨w, hmem⟩
    exact ⟨_, hmem, by simp⟩

end History

/-- What a protocol needs of the states its parties meet: an invariant that
allowed operations and changes keep, and under which answers are as relied on. -/
structure Supports (M : Machine Op ε W R E S) (P : Protocol Op ε) (Inv : W → Prop) : Prop where
  called : ∀ {β : Type} (h : List (Event Op ε)) (o : Op β) (r : R) (w : W), Inv w →
    P.guard h o → Inv (M.perform o r w).2
  changed : ∀ (e : E) (w : W), Inv w → Inv (M.react e w)
  answers : ∀ {β : Type} (o : Op β) (r : R) (w : W), Inv w → P.answers o (M.perform o r w).1

/-- Every body still running is within the protocol, from its own history on. -/
structure Disciplined (M : Machine Op ε W R E S) (P : Protocol Op ε) (Inv : W → Prop) (w₀ : W)
    (s : System Op ε W E) : Prop where
  reaches : Reaches M P w₀ s.world s.trace
  inv : Inv s.world
  obeys : ∀ i p, s.threads[i]? = some p →
    Obeys P p (history i s.trace) (fun _ _ => True) (fun _ _ => True)
  fresh : ∀ i, s.threads.length ≤ i → history i s.trace = []

section Discipline
variable {M : Machine Op ε W R E S} {P : Protocol Op ε} {Inv : W → Prop} {w₀ : W}

theorem Reaches.inv {w : W} {t : List (Entry Op ε W E)} (sup : Supports M P Inv) (start : Inv w₀)
    (h : Reaches M P w₀ w t) : Inv w := by
  induction h with
  | start => exact start
  | called i o r _ allowed ih => exact sup.called _ o r _ ih allowed
  | changed e _ ih => exact sup.changed e _ ih

/-- Every operation on record was allowed by the history of its thread. -/
theorem Reaches.guarded {w : W} {t : List (Entry Op ε W E)} (h : Reaches M P w₀ w t)
    {e : Entry Op ε W E} {rest : List (Entry Op ε W E)} (hs : e :: rest <:+ t) {i : Nat}
    {event : Event Op ε} (what : e.what = .called i event) :
    P.guard (history i rest) event.op := by
  induction h with
  | start => simp at hs
  | called j o r _ allowed ih =>
      rcases List.suffix_cons_iff.mp hs with heq | hs
      · obtain ⟨rfl, rfl⟩ := List.cons.inj heq
        cases what
        exact allowed
      · exact ih hs
  | changed c _ ih =>
      rcases List.suffix_cons_iff.mp hs with heq | hs
      · obtain ⟨rfl, rfl⟩ := List.cons.inj heq
        cases what
      · exact ih hs

theorem Supports.also (sup : Supports M P Inv)
    (guard : {β : Type} → List (Event Op ε) → Op β → Prop) : Supports M (P.also guard) Inv where
  called := fun h o r w hw hg => sup.called h o r w hw hg.1
  changed := sup.changed
  answers := sup.answers

theorem Disciplined.act {s : System Op ε W E} (sup : Supports M P Inv)
    (hs : Disciplined M P Inv w₀ s) (i : Nat) (r : R) :
    Disciplined M P Inv w₀ (M.step s (.act i r)) := by
  simp only [Machine.step]
  split
  case h_2 => exact hs
  case h_1 β o k hi =>
    have hp := hs.obeys i _ hi
    have hlt : i < s.threads.length := (List.getElem?_eq_some_iff.mp hi).1
    refine ⟨.called i o r hs.reaches hp.1, sup.called _ o r _ hs.inv hp.1, ?_, ?_⟩
    · intro j p hj
      by_cases hji : j = i
      · subst hji
        simp only [List.getElem?_set_self hlt, Option.some.injEq] at hj
        subst hj
        rw [history_called_self]
        exact hp.2 _ (sup.answers o r s.world hs.inv)
      · rw [List.getElem?_set_ne (Ne.symm hji)] at hj
        rw [history_called_ne _ (Ne.symm hji)]
        exact hs.obeys j p hj
    · intro j hj
      rw [List.length_set] at hj
      have hne : i ≠ j := by omega
      rw [history_called_ne _ hne]
      exact hs.fresh j hj

theorem Disciplined.spawn {s : System Op ε W E}
    (bodies : ∀ b, Obeys P (M.body b) [] (fun _ _ => True) (fun _ _ => True))
    (hs : Disciplined M P Inv w₀ s) (b : S) : Disciplined M P Inv w₀ (M.step s (.spawn b)) := by
  refine ⟨hs.reaches, hs.inv, ?_, ?_⟩
  · intro i p hi
    simp only [Machine.step] at hi
    rcases Nat.lt_trichotomy i s.threads.length with hlt | heq | hgt
    · rw [List.getElem?_append_left hlt] at hi
      exact hs.obeys i p hi
    · subst heq
      simp only [List.getElem?_concat_length, Option.some.injEq] at hi
      subst hi
      change Obeys P _ (history s.threads.length s.trace) _ _
      rw [hs.fresh _ (Nat.le_refl _)]
      exact bodies b
    · rw [List.getElem?_eq_none (by simp; omega)] at hi
      cases hi
  · intro i hi
    simp only [Machine.step, List.length_append, List.length_singleton] at hi
    exact hs.fresh i (by omega)

theorem Disciplined.change {s : System Op ε W E} (sup : Supports M P Inv)
    (hs : Disciplined M P Inv w₀ s) (e : E) : Disciplined M P Inv w₀ (M.step s (.change e)) := by
  refine ⟨.changed e hs.reaches, sup.changed e _ hs.inv, ?_, ?_⟩
  · intro i p hi
    simpa only [Machine.step, history_changed] using hs.obeys i p hi
  · intro i hi
    simpa only [Machine.step, history_changed] using hs.fresh i hi

/-- A pool whose bodies all keep the protocol only does what the protocol
allows. -/
theorem Machine.run_disciplined (sup : Supports M P Inv) (start : Inv w₀)
    (bodies : ∀ b, Obeys P (M.body b) [] (fun _ _ => True) (fun _ _ => True))
    (ls : List (Label R E S)) : Disciplined M P Inv w₀ (M.run w₀ ls) := by
  have hstart : Disciplined M P Inv w₀ (Machine.start w₀) :=
    ⟨.start, start, fun i p h => by simp [Machine.start] at h, fun _ _ => rfl⟩
  have hfold : ∀ (ls : List (Label R E S)) (s : System Op ε W E),
      Disciplined M P Inv w₀ s → Disciplined M P Inv w₀ (ls.foldl M.step s) := by
    intro ls
    induction ls with
    | nil => exact fun s hs => hs
    | cons l ls ih =>
        intro s hs
        refine ih _ ?_
        cases l with
        | act i r => exact hs.act sup i r
        | spawn b => exact hs.spawn bodies b
        | change e => exact hs.change sup e
  exact hfold ls _ hstart

section Thread
variable {s : System Op ε W E} {i : Nat} {p : Prog Op ε Unit}
  {ok : Unit → List (Event Op ε) → Prop} {err : ε → List (Event Op ε) → Prop}

theorem Machine.step_obeys (any : ∀ {β : Type} (o : Op β) (r : Except ε β), P.answers o r)
    (hi : s.threads[i]? = some p) (hp : Obeys P p (history i s.trace) ok err)
    (l : Label R E S) : ∃ p', (M.step s l).threads[i]? = some p' ∧
      Obeys P p' (history i (M.step s l).trace) ok err := by
  have hlt : i < s.threads.length := (List.getElem?_eq_some_iff.mp hi).1
  cases l with
  | act j r =>
      simp only [step]
      split
      case h_2 => exact ⟨p, hi, hp⟩
      case h_1 β o k hj =>
        by_cases hji : j = i
        · subst hji
          rw [hi, Option.some.injEq] at hj
          subst hj
          refine ⟨_, List.getElem?_set_self hlt, ?_⟩
          rw [history_called_self]
          exact hp.2 _ (any o _)
        · refine ⟨p, ?_, ?_⟩
          · simpa only [List.getElem?_set_ne hji] using hi
          · rw [history_called_ne _ hji]
            exact hp
  | spawn b => exact ⟨p, by simpa only [step, List.getElem?_append_left hlt] using hi, hp⟩
  | change e =>
      refine ⟨p, hi, ?_⟩
      simpa only [step, history_changed] using hp

theorem Machine.foldl_obeys (any : ∀ {β : Type} (o : Op β) (r : Except ε β), P.answers o r)
    (hi : s.threads[i]? = some p) (hp : Obeys P p (history i s.trace) ok err)
    (ls : List (Label R E S)) : ∃ p', (ls.foldl M.step s).threads[i]? = some p' ∧
      Obeys P p' (history i (ls.foldl M.step s).trace) ok err := by
  induction ls generalizing s p with
  | nil => exact ⟨p, hi, hp⟩
  | cons l ls ih =>
      obtain ⟨p', hi', hp'⟩ := M.step_obeys any hi hp l
      exact ih hi' hp'

end Thread

theorem Machine.run_append (ls ls' : List (Label R E S)) :
    M.run w₀ (ls ++ ls') = ls'.foldl M.step (M.run w₀ ls) := List.foldl_append

/-- What every allowed move relates holds between a state of a run and every
later one. -/
theorem Machine.run_continues {Q : W → W → Prop} (sup : Supports M P Inv) (start : Inv w₀)
    (bodies : ∀ b, Obeys P (M.body b) [] (fun _ _ => True) (fun _ _ => True))
    (refl : ∀ w, Q w w) (trans : ∀ {w w' w''}, Q w w' → Q w' w'' → Q w w'')
    (called : ∀ {β : Type} (i : Nat) (o : Op β) (r : R) (w : W) (t : List (Entry Op ε W E)),
      Reaches M P w₀ w t → P.guard (history i t) o → Q w (M.perform o r w).2)
    (changed : ∀ e w t, Reaches M P w₀ w t → Q w (M.react e w)) (ls ls' : List (Label R E S)) :
    Q (M.run w₀ ls).world (M.run w₀ (ls ++ ls')).world := by
  induction ls' using List.reverseRecOn with
  | nil =>
      rw [List.append_nil]
      exact refl _
  | append_singleton ls' l ih =>
      refine trans ih ?_
      have hs := M.run_disciplined sup start bodies (ls ++ ls')
      rw [← List.append_assoc, M.run_append (ls ++ ls') [l]]
      generalize M.run w₀ (ls ++ ls') = s at hs
      cases l with
      | act i r =>
          simp only [List.foldl_cons, List.foldl_nil, step]
          split
          case h_1 o k hi => exact called i o r _ _ hs.reaches (hs.obeys i _ hi).1
          case h_2 => exact refl _
      | spawn b => exact refl _
      | change e => exact changed e _ _ hs.reaches

end Discipline
end Programs
