import Mathlib.Data.List.Basic

/-!
# Programs over atomic operations

A worker body is a tree of atomic operations. Nothing is said here about what
an operation does: a continuation takes any result, so what is proved about a
program holds under every schedule and every answer of its environment.
-/
namespace Programs

/-- `halt` is a body that never acts again: a crashed worker, or a loop whose
fuel is used up. -/
inductive Prog (Op : Type → Type) (ε α : Type) : Type 1 where
  | ret (a : α)
  | raise (e : ε)
  | halt
  | call {β : Type} (o : Op β) (k : Except ε β → Prog Op ε α)

/-- One operation together with what it answered. -/
structure Event (Op : Type → Type) (ε : Type) : Type 1 where
  {β : Type}
  op : Op β
  result : Except ε β

variable {Op : Type → Type} {ε α β γ : Type}

namespace Prog

def bind : Prog Op ε α → (α → Prog Op ε β) → Prog Op ε β
  | .ret a, k => k a
  | .raise e, _ => .raise e
  | .halt, _ => .halt
  | .call o next, k => .call o (fun r => (next r).bind k)

/-- `except`: a halted body is past every handler. -/
def handle : Prog Op ε α → (ε → Prog Op ε α) → Prog Op ε α
  | .ret a, _ => .ret a
  | .raise e, k => k e
  | .halt, _ => .halt
  | .call o next, k => .call o (fun r => (next r).handle k)

instance : Monad (Prog Op ε) where
  pure := .ret
  bind := bind

instance : MonadExcept ε (Prog Op ε) where
  throw := .raise
  tryCatch := handle

def perform (o : Op α) : Prog Op ε α :=
  .call o (fun r => match r with
    | .ok a => .ret a
    | .error e => .raise e)

theorem then_assoc (p : Prog Op ε α) (k : α → Prog Op ε β) (l : β → Prog Op ε γ) :
    ((p >>= k) >>= l) = p >>= fun a => k a >>= l := by
  change (p.bind k).bind l = p.bind fun a => (k a).bind l
  induction p with
  | ret a => rfl
  | raise e => rfl
  | halt => rfl
  | call o next ih => exact congrArg (Prog.call o) (funext ih)

end Prog

/-- What a party relies on and promises. `answers` bounds the results an
operation may give; `guard` says when, after its own history (newest first), a
party may issue it. -/
structure Protocol (Op : Type → Type) (ε : Type) where
  answers : {β : Type} → Op β → Except ε β → Prop
  guard : {β : Type} → List (Event Op ε) → Op β → Prop

/-- The program keeps the protocol from a history on, ending in one of the two
postconditions. -/
def Obeys (P : Protocol Op ε) : Prog Op ε α → List (Event Op ε) →
    (α → List (Event Op ε) → Prop) → (ε → List (Event Op ε) → Prop) → Prop
  | .ret a, h, ok, _ => ok a h
  | .raise e, h, _, err => err e h
  | .halt, _, _, _ => True
  | .call o k, h, ok, err =>
      P.guard h o ∧ ∀ r, P.answers o r → Obeys P (k r) (⟨o, r⟩ :: h) ok err

/-- The operations, oldest first, are a whole run of the program, which returned. -/
def Completes : Prog Op ε α → List (Event Op ε) → α → Prop
  | .ret a, [], b => a = b
  | .call o k, e :: es, b => ∃ r, e = ⟨o, r⟩ ∧ Completes (k r) es b
  | _, _, _ => False

/-- The operations, oldest first, are a beginning of a run of the program. -/
def Begins : Prog Op ε α → List (Event Op ε) → Prop
  | _, [] => True
  | .call o k, e :: es => ∃ r, e = ⟨o, r⟩ ∧ Begins (k r) es
  | _, _ => False

/-- The operations, oldest first, are a whole run of the program. It returned or
raised, or it halted: then there is no outcome. -/
def Ends : Prog Op ε α → List (Event Op ε) → Option (Except ε α) → Prop
  | .ret a, [], out => out = some (.ok a)
  | .raise e, [], out => out = some (.error e)
  | .halt, [], out => out = none
  | .call o k, e :: es, out => ∃ r, e = ⟨o, r⟩ ∧ Ends (k r) es out
  | _, _, _ => False

/-- The run of a program against an environment with a state of its own, and how it
ended. -/
def Prog.play {σ : Type} (answer : {β : Type} → σ → Op β → Except ε β × σ) :
    Prog Op ε α → σ → List (Event Op ε) × Option (Except ε α) × σ
  | .ret a, s => ([], some (.ok a), s)
  | .raise e, s => ([], some (.error e), s)
  | .halt, s => ([], none, s)
  | .call o k, s =>
      let later := (k (answer s o).1).play answer (answer s o).2
      (⟨o, (answer s o).1⟩ :: later.1, later.2)

theorem Prog.play_ends {σ : Type} (answer : {β : Type} → σ → Op β → Except ε β × σ)
    (p : Prog Op ε α) (s : σ) : Ends p (p.play answer s).1 (p.play answer s).2.1 := by
  induction p generalizing s with
  | ret a => exact rfl
  | raise e => exact rfl
  | halt => exact rfl
  | call o k ih => exact ⟨_, rfl, ih _ _⟩

def Protocol.also (P : Protocol Op ε) (guard : {β : Type} → List (Event Op ε) → Op β → Prop) :
    Protocol Op ε where
  answers := P.answers
  guard := fun h o => P.guard h o ∧ guard h o

namespace Obeys
variable {P : Protocol Op ε} {p : Prog Op ε α} {h : List (Event Op ε)}
  {ok ok' : α → List (Event Op ε) → Prop} {err err' : ε → List (Event Op ε) → Prop}

theorem mono (hp : Obeys P p h ok err) (hok : ∀ a h', ok a h' → ok' a h')
    (herr : ∀ e h', err e h' → err' e h') : Obeys P p h ok' err' := by
  induction p generalizing h with
  | ret a => exact hok a h hp
  | raise e => exact herr e h hp
  | halt => exact trivial
  | call o k ih => exact ⟨hp.1, fun r hr => ih r (hp.2 r hr)⟩

theorem extends_history (hp : Obeys P p h ok err) :
    Obeys P p h (fun a h' => h <:+ h' ∧ ok a h') (fun e h' => h <:+ h' ∧ err e h') := by
  induction p generalizing h with
  | ret a => exact ⟨List.suffix_rfl, hp⟩
  | raise e => exact ⟨List.suffix_rfl, hp⟩
  | halt => exact trivial
  | call o k ih =>
      refine ⟨hp.1, fun r hr => ?_⟩
      have hk := ih r (hp.2 r hr)
      exact hk.mono (fun _ _ hq => ⟨(List.suffix_cons _ _).trans hq.1, hq.2⟩)
        (fun _ _ hq => ⟨(List.suffix_cons _ _).trans hq.1, hq.2⟩)

theorem completes (hp : Obeys P p h ok err) :
    Obeys P p h (fun a h' => (∃ run, h' = run.reverse ++ h ∧ Completes p run a) ∧ ok a h') err := by
  induction p generalizing h with
  | ret a => exact ⟨⟨[], rfl, rfl⟩, hp⟩
  | raise e => exact hp
  | halt => exact trivial
  | call o k ih =>
      refine ⟨hp.1, fun r hr => ?_⟩
      refine (ih r (hp.2 r hr)).mono (fun a h' hq => ⟨?_, hq.2⟩) (fun _ _ he => he)
      obtain ⟨run, rfl, hrun⟩ := hq.1
      exact ⟨⟨o, r⟩ :: run, by simp, r, rfl, hrun⟩

theorem raises (hp : Obeys P p h ok err) : Obeys P p h ok
    (fun e h' => (∃ run, h' = run.reverse ++ h ∧ Ends p run (some (.error e))) ∧ err e h') := by
  induction p generalizing h with
  | ret a => exact hp
  | raise e => exact ⟨⟨[], rfl, rfl⟩, hp⟩
  | halt => exact trivial
  | call o k ih =>
      refine ⟨hp.1, fun r hr => ?_⟩
      refine (ih r (hp.2 r hr)).mono (fun _ _ ha => ha) (fun e h' hq => ⟨?_, hq.2⟩)
      obtain ⟨run, rfl, hrun⟩ := hq.1
      exact ⟨⟨o, r⟩ :: run, by simp, r, rfl, hrun⟩

/-- A run whose answers are as relied on ends in one of the two postconditions. -/
theorem ends {run : List (Event Op ε)} {out : Option (Except ε α)} (hp : Obeys P p h ok err)
    (answered : ∀ e ∈ run, P.answers e.op e.result) (ended : Ends p run out) :
    (∀ a, out = some (.ok a) → ok a (run.reverse ++ h)) ∧
      ∀ e, out = some (.error e) → err e (run.reverse ++ h) := by
  induction run generalizing p h with
  | nil =>
      cases p with
      | ret a =>
          cases ended
          exact ⟨fun _ ha => Except.ok.inj (Option.some.inj ha) ▸ hp, fun _ he => nomatch he⟩
      | raise e =>
          cases ended
          exact ⟨fun _ ha => (nomatch ha), fun _ he => Except.error.inj (Option.some.inj he) ▸ hp⟩
      | halt =>
          cases ended
          exact ⟨fun _ ha => (nomatch ha), fun _ he => nomatch he⟩
      | call o k => exact ended.elim
  | cons e run ih =>
      cases p with
      | ret a => exact ended.elim
      | raise e => exact ended.elim
      | halt => exact ended.elim
      | call o k =>
          obtain ⟨r, rfl, hrest⟩ := ended
          obtain ⟨hfirst, hothers⟩ := List.forall_mem_cons.mp answered
          have hlater := ih (hp.2 r hfirst) hothers hrest
          simpa only [List.reverse_cons, List.append_assoc, List.singleton_append] using hlater

end Obeys

section Rules
variable {P : Protocol Op ε} {h : List (Event Op ε)}

@[simp] theorem obeys_pure {a : α} {ok : α → List (Event Op ε) → Prop}
    {err : ε → List (Event Op ε) → Prop} :
    Obeys P (pure a : Prog Op ε α) h ok err ↔ ok a h := Iff.rfl

@[simp] theorem obeys_throw {e : ε} {ok : α → List (Event Op ε) → Prop}
    {err : ε → List (Event Op ε) → Prop} :
    Obeys P (throw e : Prog Op ε α) h ok err ↔ err e h := Iff.rfl

@[simp] theorem obeys_halt {ok : α → List (Event Op ε) → Prop}
    {err : ε → List (Event Op ε) → Prop} :
    Obeys P (.halt : Prog Op ε α) h ok err ↔ True := Iff.rfl

@[simp] theorem obeys_bind {p : Prog Op ε α} {k : α → Prog Op ε β}
    {ok : β → List (Event Op ε) → Prop} {err : ε → List (Event Op ε) → Prop} :
    Obeys P (p >>= k) h ok err ↔ Obeys P p h (fun a h' => Obeys P (k a) h' ok err) err := by
  change Obeys P (p.bind k) h ok err ↔ _
  induction p generalizing h with
  | ret a => exact Iff.rfl
  | raise e => exact Iff.rfl
  | halt => exact Iff.rfl
  | call o next ih =>
      exact and_congr Iff.rfl (forall_congr' fun r => imp_congr_right fun _ => ih r)

@[simp] theorem obeys_tryCatch {p : Prog Op ε α} {k : ε → Prog Op ε α}
    {ok : α → List (Event Op ε) → Prop} {err : ε → List (Event Op ε) → Prop} :
    Obeys P (tryCatch p k) h ok err ↔ Obeys P p h ok (fun e h' => Obeys P (k e) h' ok err) := by
  change Obeys P (p.handle k) h ok err ↔ _
  induction p generalizing h with
  | ret a => exact Iff.rfl
  | raise e => exact Iff.rfl
  | halt => exact Iff.rfl
  | call o next ih =>
      exact and_congr Iff.rfl (forall_congr' fun r => imp_congr_right fun _ => ih r)

@[simp] theorem obeys_perform {o : Op α} {ok : α → List (Event Op ε) → Prop}
    {err : ε → List (Event Op ε) → Prop} :
    Obeys P (Prog.perform o) h ok err ↔
      P.guard h o ∧ (∀ a, P.answers o (.ok a) → ok a (⟨o, .ok a⟩ :: h)) ∧
        ∀ e, P.answers o (.error e) → err e (⟨o, .error e⟩ :: h) := by
  refine and_congr Iff.rfl ⟨fun hr => ⟨fun a => hr (.ok a), fun e => hr (.error e)⟩, ?_⟩
  rintro ⟨hok, herr⟩ (e | a) hr
  · exact herr e hr
  · exact hok a hr

/-- The program keeps the protocol from a history on, however it ends. -/
def Keeps (P : Protocol Op ε) (p : Prog Op ε α) (h : List (Event Op ε)) : Prop :=
  Obeys P p h (fun _ _ => True) (fun _ _ => True)

namespace Keeps

theorem pure (a : α) : Keeps P (Pure.pure a : Prog Op ε α) h := trivial

theorem throw (e : ε) : Keeps P (MonadExcept.throw e : Prog Op ε α) h := trivial

theorem halt : Keeps P (.halt : Prog Op ε α) h := trivial

theorem perform {o : Op α} (allowed : P.guard h o) : Keeps P (Prog.perform o) h :=
  obeys_perform.mpr ⟨allowed, fun _ _ => trivial, fun _ _ => trivial⟩

theorem perform_bind {o : Op α} {k : α → Prog Op ε β} (allowed : P.guard h o)
    (rest : ∀ a, P.answers o (.ok a) → Keeps P (k a) (⟨o, .ok a⟩ :: h)) :
    Keeps P (Prog.perform o >>= k) h :=
  obeys_bind.mpr (obeys_perform.mpr ⟨allowed, rest, fun _ _ => trivial⟩)

theorem run_bind {p : Prog Op ε α} {k : α → Prog Op ε β} (first : Keeps P p h)
    (rest : ∀ a run, Completes p run a → Keeps P (k a) (run.reverse ++ h)) :
    Keeps P (p >>= k) h := by
  refine obeys_bind.mpr (first.completes.mono (fun a h' hq => ?_) (fun _ _ _ => trivial))
  obtain ⟨⟨run, rfl, hrun⟩, -⟩ := hq
  exact rest a run hrun

theorem bind {p : Prog Op ε α} {k : α → Prog Op ε β} (first : Keeps P p h)
    (rest : ∀ a h', h <:+ h' → Keeps P (k a) h') : Keeps P (p >>= k) h :=
  obeys_bind.mpr (first.extends_history.mono (fun a h' hp => rest a h' hp.1) (fun _ _ _ => trivial))

theorem tryCatch {p : Prog Op ε α} {k : ε → Prog Op ε α} (body : Keeps P p h)
    (handler : ∀ e h', h <:+ h' → Keeps P (k e) h') : Keeps P (MonadExcept.tryCatch p k) h :=
  obeys_tryCatch.mpr
    (body.extends_history.mono (fun _ _ _ => trivial) (fun e h' hp => handler e h' hp.1))

theorem ite {c : Prop} [Decidable c] {p q : Prog Op ε α} (yes : c → Keeps P p h)
    (no : ¬c → Keeps P q h) : Keeps P (if c then p else q) h := by
  by_cases hc : c
  · rw [if_pos hc]
    exact yes hc
  · rw [if_neg hc]
    exact no hc

theorem of_guard {p : Prog Op ε α}
    (always : ∀ h', h <:+ h' → ∀ {β : Type} (o : Op β), P.guard h' o) : Keeps P p h := by
  induction p generalizing h with
  | ret a => exact trivial
  | raise e => exact trivial
  | halt => exact trivial
  | call o k ih =>
      refine ⟨always h List.suffix_rfl o, fun r _ => ?_⟩
      exact ih r fun h' hs => always h' ((List.suffix_cons _ _).trans hs)

theorem weaken {Q : Protocol Op ε} {p : Prog Op ε α} (hp : Keeps P p h)
    (answers : ∀ {β : Type} (o : Op β) r, Q.answers o r → P.answers o r)
    (guard : ∀ h' {β : Type} (o : Op β), P.guard h' o → Q.guard h' o) : Keeps Q p h := by
  induction p generalizing h with
  | ret a => exact trivial
  | raise e => exact trivial
  | halt => exact trivial
  | call o k ih => exact ⟨guard h o hp.1, fun r hr => ih r (hp.2 r (answers o r hr))⟩

theorem also {p : Prog Op ε α} {guard : {β : Type} → List (Event Op ε) → Op β → Prop}
    (hp : Keeps P p h) (hq : Keeps ⟨P.answers, guard⟩ p h) : Keeps (P.also guard) p h := by
  induction p generalizing h with
  | ret a => exact trivial
  | raise e => exact trivial
  | halt => exact trivial
  | call o k ih => exact ⟨⟨hp.1, hq.1⟩, fun r hr => ih r (hp.2 r hr) (hq.2 r hr)⟩

theorem obeys {p : Prog Op ε α} {guard : {β : Type} → List (Event Op ε) → Op β → Prop}
    {ok : α → List (Event Op ε) → Prop} {err : ε → List (Event Op ε) → Prop}
    (hq : Keeps ⟨P.answers, guard⟩ p h) (hp : Obeys P p h ok err) :
    Obeys ⟨P.answers, guard⟩ p h ok err := by
  induction p generalizing h with
  | ret a => exact hp
  | raise e => exact hp
  | halt => exact trivial
  | call o k ih => exact ⟨hq.1, fun r hr => ih r (hq.2 r hr) (hp.2 r hr)⟩

/-- Every operation of a run was issued as the protocol says. -/
theorem begins {p : Prog Op ε α} {run before after : List (Event Op ε)} {e : Event Op ε}
    (hp : Keeps P p h) (answered : ∀ e ∈ run, P.answers e.op e.result) (started : Begins p run)
    (split : run = before ++ e :: after) : P.guard (before.reverse ++ h) e.op := by
  induction before generalizing p h run with
  | nil =>
      subst split
      cases p with
      | ret a => exact started.elim
      | raise e => exact started.elim
      | halt => exact started.elim
      | call o k =>
          obtain ⟨r, rfl, -⟩ := started
          exact hp.1
  | cons first before ih =>
      subst split
      cases p with
      | ret a => exact started.elim
      | raise e => exact started.elim
      | halt => exact started.elim
      | call o k =>
          obtain ⟨r, rfl, hrest⟩ := started
          obtain ⟨hfirst, hothers⟩ := List.forall_mem_cons.mp answered
          have hguard := ih (hp.2 r hfirst) hothers hrest rfl
          simpa only [List.reverse_cons, List.append_assoc, List.singleton_append] using hguard

theorem issues (p : Prog Op ε α) :
    Keeps ⟨P.answers, fun h o => ∀ r, Begins p (h.reverse ++ [⟨o, r⟩])⟩ p [] := by
  have hfrom : ∀ (q : Prog Op ε α) (h : List (Event Op ε)),
      (∀ later, Begins q later → Begins p (h.reverse ++ later)) →
      Keeps ⟨P.answers, fun h o => ∀ r, Begins p (h.reverse ++ [⟨o, r⟩])⟩ q h := by
    intro q
    induction q with
    | ret a => exact fun _ _ => trivial
    | raise e => exact fun _ _ => trivial
    | halt => exact fun _ _ => trivial
    | call o k ih =>
        intro h hsofar
        refine ⟨fun r => hsofar [⟨o, r⟩] ⟨r, rfl, ?_⟩, fun r _ => ih r _ fun later hlater => ?_⟩
        · cases k r <;> exact trivial
        · have hnext := hsofar (⟨o, r⟩ :: later) ⟨r, rfl, hlater⟩
          simpa only [List.reverse_cons, List.append_assoc, List.singleton_append] using hnext
  exact hfrom p [] fun later hlater => hlater

end Keeps

theorem begins_tryCatch {p : Prog Op ε α} {k : ε → Prog Op ε α} {first later : List (Event Op ε)}
    {e : ε} (raised : Ends p first (some (.error e)))
    (started : Begins (tryCatch p k : Prog Op ε α) (first ++ later)) : Begins (k e) later := by
  change Begins (p.handle k) (first ++ later) at started
  induction first generalizing p with
  | nil =>
      cases p with
      | ret a => cases raised
      | raise e' =>
          cases raised
          exact started
      | halt => cases raised
      | call o next => exact raised.elim
  | cons event first ih =>
      cases p with
      | ret a => exact raised.elim
      | raise e' => exact raised.elim
      | halt => exact raised.elim
      | call o next =>
          obtain ⟨r, rfl, hraised⟩ := raised
          obtain ⟨r', hevent, hstarted⟩ := started
          cases hevent
          exact ih hraised hstarted

theorem begins_bind {p : Prog Op ε α} {k : α → Prog Op ε β} {run : List (Event Op ε)}
    (started : Begins (p >>= k) run) : Begins p run ∨
      ∃ first later a, run = first ++ later ∧ Completes p first a ∧ Begins (k a) later := by
  change Begins (p.bind k) run at started
  induction p generalizing run with
  | ret a => exact .inr ⟨[], run, a, rfl, rfl, started⟩
  | raise e =>
      cases run with
      | nil => exact .inl trivial
      | cons => exact started.elim
  | halt =>
      cases run with
      | nil => exact .inl trivial
      | cons => exact started.elim
  | call o next ih =>
      cases run with
      | nil => exact .inl trivial
      | cons event run =>
          obtain ⟨r, rfl, hstarted⟩ := started
          rcases ih r hstarted with hbegun | ⟨first, later, a, rfl, hfirst, hlater⟩
          · exact .inl ⟨r, rfl, hbegun⟩
          · exact .inr ⟨⟨o, r⟩ :: first, later, a, rfl, ⟨r, rfl, hfirst⟩, hlater⟩

end Rules

section Completions
variable {run : List (Event Op ε)} {a : α} {b : β}

@[simp] theorem completes_pure {a' : α} :
    Completes (pure a : Prog Op ε α) run a' ↔ run = [] ∧ a = a' := by
  cases run with
  | nil => exact (and_iff_right rfl).symm
  | cons e es => exact iff_of_false id fun h => List.cons_ne_nil _ _ h.1

theorem Completes.begins {p : Prog Op ε α} (h : Completes p run a) : Begins p run := by
  induction run generalizing p with
  | nil => cases p <;> exact trivial
  | cons e es ih =>
      cases p with
      | ret a => exact h
      | raise e => exact h
      | halt => exact h
      | call o k =>
          obtain ⟨r, rfl, hrest⟩ := h
          exact ⟨r, rfl, ih hrest⟩

@[simp] theorem completes_throw {e : ε} : ¬Completes (throw e : Prog Op ε α) run a := id

@[simp] theorem completes_halt : ¬Completes (.halt : Prog Op ε α) run a := id

@[simp] theorem completes_perform {o : Op α} :
    Completes (.perform o : Prog Op ε α) run a ↔ run = [⟨o, .ok a⟩] := by
  cases run with
  | nil => exact iff_of_false id (List.cons_ne_nil _ _).symm
  | cons e es =>
      constructor
      · rintro ⟨r, rfl, h⟩
        cases r with
        | error => exact h.elim
        | ok a' =>
            obtain ⟨rfl, rfl⟩ := completes_pure.mp h
            rfl
      · intro h
        obtain ⟨rfl, rfl⟩ := List.cons.inj h
        exact ⟨.ok a, rfl, rfl⟩

theorem completes_bind {p : Prog Op ε α} {k : α → Prog Op ε β} :
    Completes (p >>= k) run b ↔
      ∃ first rest a, run = first ++ rest ∧ Completes p first a ∧ Completes (k a) rest b := by
  change Completes (p.bind k) run b ↔ _
  induction p generalizing run with
  | ret a =>
      constructor
      · intro h
        exact ⟨[], run, a, rfl, rfl, h⟩
      · rintro ⟨first, rest, a', rfl, h, hk⟩
        obtain ⟨rfl, rfl⟩ := completes_pure.mp h
        exact hk
  | raise e => exact iff_of_false id fun ⟨_, _, _, _, h, _⟩ => h
  | halt => exact iff_of_false id fun ⟨_, _, _, _, h, _⟩ => h
  | call o next ih =>
      cases run with
      | nil =>
          refine iff_of_false id ?_
          rintro ⟨first, rest, a, hrun, h, -⟩
          obtain ⟨rfl, rfl⟩ := List.append_eq_nil_iff.mp hrun.symm
          exact h
      | cons e es =>
          constructor
          · rintro ⟨r, rfl, h⟩
            obtain ⟨first, rest, a, rfl, hp, hk⟩ := (ih r).mp h
            exact ⟨⟨o, r⟩ :: first, rest, a, rfl, ⟨r, rfl, hp⟩, hk⟩
          · rintro ⟨first, rest, a, hrun, hp, hk⟩
            cases first with
            | nil => exact hp.elim
            | cons e' first =>
                obtain ⟨rfl, rfl⟩ := List.cons.inj hrun
                obtain ⟨r, rfl, hp⟩ := hp
                exact ⟨r, rfl, (ih r).mpr ⟨first, rest, a, rfl, hp, hk⟩⟩

theorem ends_ok {p : Prog Op ε α} : Ends p run (some (.ok a)) ↔ Completes p run a := by
  induction run generalizing p with
  | nil =>
      cases p with
      | ret b => simp [Ends, Completes, eq_comm]
      | raise e => simp [Ends, Completes]
      | halt => simp [Ends, Completes]
      | call o k => exact Iff.rfl
  | cons e es ih =>
      cases p with
      | ret b => exact Iff.rfl
      | raise e => exact Iff.rfl
      | halt => exact Iff.rfl
      | call o k => exact exists_congr fun r => and_congr_right fun _ => ih

/-- What a program played against an environment is a run of it. -/
theorem Prog.play_completes {σ : Type} {answer : {β : Type} → σ → Op β → Except ε β × σ}
    {p : Prog Op ε α} {s : σ} (h : (p.play answer s).2.1 = some (.ok a)) :
    Completes p (p.play answer s).1 a := ends_ok.mp (h ▸ p.play_ends answer s)

@[simp] theorem ends_pure {out : Option (Except ε α)} :
    Ends (pure a : Prog Op ε α) run out ↔ run = [] ∧ out = some (.ok a) := by
  cases run with
  | nil => exact (and_iff_right rfl).symm
  | cons e es => exact iff_of_false id fun h => List.cons_ne_nil _ _ h.1

@[simp] theorem ends_throw {e : ε} {out : Option (Except ε α)} :
    Ends (throw e : Prog Op ε α) run out ↔ run = [] ∧ out = some (.error e) := by
  cases run with
  | nil => exact (and_iff_right rfl).symm
  | cons e' es => exact iff_of_false id fun h => List.cons_ne_nil _ _ h.1

@[simp] theorem ends_perform {o : Op α} {out : Option (Except ε α)} :
    Ends (.perform o : Prog Op ε α) run out ↔ ∃ r, run = [⟨o, r⟩] ∧ out = some r := by
  cases run with
  | nil => exact iff_of_false id fun ⟨r, h, _⟩ => List.cons_ne_nil _ _ h.symm
  | cons e es =>
      constructor
      · rintro ⟨r, rfl, h⟩
        cases r with
        | error e =>
            obtain ⟨rfl, rfl⟩ := ends_throw.mp h
            exact ⟨.error e, rfl, rfl⟩
        | ok a =>
            obtain ⟨rfl, rfl⟩ := ends_pure.mp h
            exact ⟨.ok a, rfl, rfl⟩
      · rintro ⟨r, h, rfl⟩
        obtain ⟨rfl, rfl⟩ := List.cons.inj h
        refine ⟨r, rfl, ?_⟩
        cases r with
        | error e => exact rfl
        | ok a => exact rfl

theorem ends_bind {p : Prog Op ε α} {k : α → Prog Op ε β} {out : Option (Except ε β)}
    (h : Ends (p >>= k) run out) :
    (∃ first rest a, run = first ++ rest ∧ Completes p first a ∧ Ends (k a) rest out) ∨
      (∃ e, Ends p run (some (.error e)) ∧ out = some (.error e)) ∨ (Ends p run none ∧ out = none) := by
  change Ends (p.bind k) run out at h
  induction p generalizing run with
  | ret a => exact .inl ⟨[], run, a, rfl, rfl, h⟩
  | raise e =>
      cases run with
      | nil => exact .inr (.inl ⟨e, rfl, h⟩)
      | cons => exact h.elim
  | halt =>
      cases run with
      | nil => exact .inr (.inr ⟨rfl, h⟩)
      | cons => exact h.elim
  | call o next ih =>
      cases run with
      | nil => exact h.elim
      | cons e es =>
          obtain ⟨r, rfl, h⟩ := h
          rcases ih r h with ⟨first, rest, a, rfl, hp, hk⟩ | ⟨e, he, rfl⟩ | ⟨hhalt, rfl⟩
          · exact .inl ⟨⟨o, r⟩ :: first, rest, a, rfl, ⟨r, rfl, hp⟩, hk⟩
          · exact .inr (.inl ⟨e, ⟨r, rfl, he⟩, rfl⟩)
          · exact .inr (.inr ⟨⟨r, rfl, hhalt⟩, rfl⟩)

/-- The program returns or raises, once every operation is answered. -/
def Decides (p : Prog Op ε α) : Prop := ∀ run, ¬Ends p run none

theorem Decides.pure (a : α) : Decides (Pure.pure a : Prog Op ε α) := fun _ h =>
  nomatch (ends_pure.mp h).2

theorem Decides.throw (e : ε) : Decides (MonadExcept.throw e : Prog Op ε α) := fun _ h =>
  nomatch (ends_throw.mp h).2

theorem Decides.perform (o : Op α) : Decides (.perform o : Prog Op ε α) := fun _ h => by
  obtain ⟨r, -, hout⟩ := ends_perform.mp h
  cases hout

theorem Decides.bind {p : Prog Op ε α} {k : α → Prog Op ε β} (hp : Decides p)
    (hk : ∀ a, Decides (k a)) : Decides (p >>= k) := by
  intro run h
  rcases ends_bind h with ⟨first, rest, a, -, -, hrest⟩ | ⟨e, -, hout⟩ | ⟨hhalt, -⟩
  · exact hk a rest hrest
  · cases hout
  · exact hp run hhalt

theorem Decides.ite {c : Prop} [Decidable c] {p q : Prog Op ε α} (hp : Decides p) (hq : Decides q) :
    Decides (if c then p else q) := by
  by_cases hc : c
  · rw [if_pos hc]
    exact hp
  · rw [if_neg hc]
    exact hq

end Completions
end Programs
