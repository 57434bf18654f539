import CoderManager.Lib.Program

/-!
# Programs over a state

What an operation may answer in a state and which state it may leave is a
relation, so that other parties may move between two operations. A program that
stops anywhere on its way has reached a state; a condition kept along the way
holds there too, and the postconditions hold where it ended.
-/
namespace Programs

universe u

/-- What an operation may answer in a state, and the state it may leave. -/
def Semantics (Op : Type → Type) (ε : Type) (W : Type u) : Type (max 1 u) :=
  ⦃β : Type⦄ → Op β → W → Except ε β → W → Prop

variable {Op : Type → Type} {ε α β : Type} {W : Type u}

/-- A program started in a state has come to another with the rest still to do. -/
inductive Proceeds (S : Semantics Op ε W) : Prog Op ε α → W → Prog Op ε α → W → Prop where
  | refl (p : Prog Op ε α) (w : W) : Proceeds S p w p w
  | step {γ : Type} {o : Op γ} {k : Except ε γ → Prog Op ε α} {w w' w'' : W} {r : Except ε γ}
      {rest : Prog Op ε α} (answered : S o w r w') (onward : Proceeds S (k r) w' rest w'') :
      Proceeds S (.call o k) w rest w''

def Prog.ended : Except ε α → Prog Op ε α
  | .ok a => .ret a
  | .error e => .raise e

def Finishes (S : Semantics Op ε W) (p : Prog Op ε α) (w : W) (r : Except ε α) (w' : W) : Prop :=
  Proceeds S p w (.ended r) w'

/-- Every state on the way of the program keeps the condition, and it ends in one
of the two postconditions. `stuck` says whether a program may stop acting. -/
def Upholds (S : Semantics Op ε W) (inv : W → Prop) (stuck : Prop) : Prog Op ε α → W →
    (α → W → Prop) → (ε → W → Prop) → Prop
  | .ret a, w, ok, _ => ok a w
  | .raise e, w, _, err => err e w
  | .halt, _, _, _ => stuck
  | .call o k, w, ok, err => ∀ r w', S o w r w' → inv w' ∧ Upholds S inv stuck (k r) w' ok err

section Rules
variable {S : Semantics Op ε W} {inv : W → Prop} {stuck : Prop} {w : W}

@[simp] theorem upholds_pure {a : α} {ok : α → W → Prop} {err : ε → W → Prop} :
    Upholds S inv stuck (pure a : Prog Op ε α) w ok err ↔ ok a w := Iff.rfl

@[simp] theorem upholds_throw {e : ε} {ok : α → W → Prop} {err : ε → W → Prop} :
    Upholds S inv stuck (throw e : Prog Op ε α) w ok err ↔ err e w := Iff.rfl

@[simp] theorem upholds_halt {ok : α → W → Prop} {err : ε → W → Prop} :
    Upholds S inv stuck (.halt : Prog Op ε α) w ok err ↔ stuck := Iff.rfl

@[simp] theorem upholds_bind {p : Prog Op ε α} {k : α → Prog Op ε β} {ok : β → W → Prop}
    {err : ε → W → Prop} :
    Upholds S inv stuck (p >>= k) w ok err ↔
      Upholds S inv stuck p w (fun a w' => Upholds S inv stuck (k a) w' ok err) err := by
  change Upholds S inv stuck (p.bind k) w ok err ↔ _
  induction p generalizing w with
  | ret a => exact Iff.rfl
  | raise e => exact Iff.rfl
  | halt => exact Iff.rfl
  | call o next ih =>
      refine forall_congr' fun r => forall_congr' fun w' => imp_congr_right fun _ => ?_
      exact and_congr Iff.rfl (ih r)

@[simp] theorem upholds_tryCatch {p : Prog Op ε α} {k : ε → Prog Op ε α} {ok : α → W → Prop}
    {err : ε → W → Prop} :
    Upholds S inv stuck (tryCatch p k) w ok err ↔
      Upholds S inv stuck p w ok (fun e w' => Upholds S inv stuck (k e) w' ok err) := by
  change Upholds S inv stuck (p.handle k) w ok err ↔ _
  induction p generalizing w with
  | ret a => exact Iff.rfl
  | raise e => exact Iff.rfl
  | halt => exact Iff.rfl
  | call o next ih =>
      refine forall_congr' fun r => forall_congr' fun w' => imp_congr_right fun _ => ?_
      exact and_congr Iff.rfl (ih r)

@[simp] theorem upholds_perform {o : Op α} {ok : α → W → Prop} {err : ε → W → Prop} :
    Upholds S inv stuck (Prog.perform o) w ok err ↔
      (∀ a w', S o w (.ok a) w' → inv w' ∧ ok a w') ∧
        ∀ e w', S o w (.error e) w' → inv w' ∧ err e w' := by
  constructor
  · intro h
    exact ⟨fun a => h (.ok a), fun e => h (.error e)⟩
  · rintro ⟨hok, herr⟩ (e | a) w' hs
    · exact herr e w' hs
    · exact hok a w' hs

namespace Upholds
variable {p : Prog Op ε α} {ok ok' : α → W → Prop} {err err' : ε → W → Prop}

theorem mono (h : Upholds S inv stuck p w ok err) (hok : ∀ a w', ok a w' → ok' a w')
    (herr : ∀ e w', err e w' → err' e w') : Upholds S inv stuck p w ok' err' := by
  induction p generalizing w with
  | ret a => exact hok a w h
  | raise e => exact herr e w h
  | halt => exact h
  | call o k ih => exact fun r w' hs => ⟨(h r w' hs).1, ih r (h r w' hs).2⟩

theorem bind {k : α → Prog Op ε β} {ok₁ : α → W → Prop} {err₁ err : ε → W → Prop}
    {ok : β → W → Prop} (first : Upholds S inv stuck p w ok₁ err₁)
    (rest : ∀ a w', ok₁ a w' → Upholds S inv stuck (k a) w' ok err)
    (raised : ∀ e w', err₁ e w' → err e w') : Upholds S inv stuck (p >>= k) w ok err :=
  upholds_bind.mpr (first.mono rest raised)

/-- Wherever the program stopped, the condition held; where it ended, its
postcondition did. -/
theorem sound (h : Upholds S inv stuck p w ok err) (start : inv w) {rest : Prog Op ε α} {w' : W}
    (reached : Proceeds S p w rest w') :
    inv w' ∧ (∀ a, rest = .ret a → ok a w') ∧ (∀ e, rest = .raise e → err e w') := by
  induction reached with
  | refl p w =>
      refine ⟨start, ?_, ?_⟩
      · rintro a rfl
        exact h
      · rintro e rfl
        exact h
  | step answered onward ih =>
      have hs := h _ _ answered
      exact ih hs.2 hs.1

/-- A program that has ended has met its postconditions. -/
theorem finishes (h : Upholds S (fun _ => True) stuck p w ok err) {r : Except ε α} {w' : W}
    (f : Finishes S p w r w') : (∀ a, r = .ok a → ok a w') ∧ ∀ e, r = .error e → err e w' := by
  obtain ⟨-, hok, herr⟩ := h.sound trivial f
  refine ⟨?_, ?_⟩
  · rintro a rfl
    exact hok a rfl
  · rintro e rfl
    exact herr e rfl

theorem of_keeps {P : Protocol Op ε} {h : List (Event Op ε)} (hp : Keeps P p h)
    (answers : ∀ {β : Type} (o : Op β) (r : Except ε β), P.answers o r)
    (good : W → Prop) (start : good w)
    (kept : ∀ {β : Type} (o : Op β) h w r w', P.guard h o → good w → S o w r w' →
      inv w' ∧ good w') :
    Upholds S inv True p w (fun _ => good) (fun _ => good) := by
  induction p generalizing h w with
  | ret a => exact start
  | raise e => exact start
  | halt => exact trivial
  | call o k ih =>
      intro r w' hs
      have hk := kept o h w r w' hp.1 start hs
      exact ⟨hk.1, ih r (hp.2 r (answers o r)) hk.2⟩

end Upholds

theorem upholds_ite {c : Prop} [Decidable c] {p q : Prog Op ε α} {ok : α → W → Prop}
    {err : ε → W → Prop} (yes : c → Upholds S inv stuck p w ok err)
    (no : ¬c → Upholds S inv stuck q w ok err) :
    Upholds S inv stuck (if c then p else q) w ok err := by
  by_cases hc : c
  · rw [if_pos hc]
    exact yes hc
  · rw [if_neg hc]
    exact no hc

end Rules
end Programs
