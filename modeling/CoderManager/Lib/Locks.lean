import Mathlib.Logic.Relation

/-!
# Row locks

A row is held by one session at a time, from the moment it is taken until the
session ends.
-/
namespace Locks

variable {R : Type} [DecidableEq R]

/-- Who holds each row. -/
abbrev Holders (R : Type) := R → Option Nat

namespace Holders
variable (h : Holders R)

/-- Nobody but the session itself stands in the way of taking the row. -/
def isFree (row : R) (session : Nat) : Bool := h row == none || h row == some session

def take (row : R) (session : Nat) : Holders R := fun r => if r = row then some session else h r

def release (session : Nat) : Holders R := fun r => if h r = some session then none else h r

variable {h} {row row' : R} {session session' : Nat}

@[simp] theorem take_self : h.take row session row = some session := if_pos rfl

theorem take_other (held : h row' = some session') (free : h.isFree row session = true)
    (other : session' ≠ session) : h.take row session row' = some session' := by
  unfold take
  split
  · rename_i heq
    subst heq
    simp only [isFree, held, Bool.or_eq_true, beq_iff_eq] at free
    rcases free with h | h
    · cases h
    · exact absurd (Option.some.inj h) other
  · exact held

theorem take_own (held : h row' = some session) : h.take row session row' = some session := by
  unfold take
  split
  · rfl
  · exact held

omit [DecidableEq R] in
theorem release_other (held : h row = some session') (other : session' ≠ session) :
    h.release session row = some session' := by
  unfold release
  rw [held, if_neg]
  exact fun heq => other (Option.some.inj heq)

end Holders

structure Claimant (R : Type) where
  taken : List R
  wanted : List R
  deriving DecidableEq

def Claimant.rows (c : Claimant R) : List R := c.taken ++ c.wanted

/-- The lock table with the sessions that are open. -/
structure Ward (R : Type) where
  holders : Holders R
  claimants : Nat → Option (Claimant R)

inductive WardStep (R : Type) where
  | begin (n : Nat) (rows : List R)
  | take (n : Nat)
  /-- A commit, a rollback or a lost connection. -/
  | leave (n : Nat)

namespace Ward

def empty : Ward R := ⟨fun _ => none, fun _ => none⟩

/-- One step; a session that waits for a row does not move. -/
def apply (p : Ward R) : WardStep R → Ward R
  | .begin n rows =>
      match p.claimants n with
      | some _ => p
      | none => { p with claimants := fun m => if m = n then some ⟨[], rows⟩ else p.claimants m }
  | .take n =>
      match p.claimants n with
      | some ⟨taken, row :: wanted⟩ =>
          if p.holders.isFree row n then {
            holders := p.holders.take row n
            claimants := fun m =>
              if m = n then some ⟨taken ++ [row], wanted⟩ else p.claimants m }
          else p
      | _ => p
  | .leave n => {
      holders := p.holders.release n
      claimants := fun m => if m = n then none else p.claimants m }

def run (steps : List (WardStep R)) : Ward R := steps.foldl apply empty

def WaitsFor (p : Ward R) (n m : Nat) : Prop :=
  ∃ c row rest, p.claimants n = some c ∧ c.wanted = row :: rest ∧ p.holders row = some m ∧ m ≠ n

/-- A session that waits for itself through others. -/
def CircularWait (p : Ward R) : Prop := ∃ n, Relation.TransGen p.WaitsFor n n

end Ward

section Order
variable (before : R → R → Prop)

/-- A row that is taken before one that the order puts first. -/
def EarlyIn (rows : List R) (row : R) : Prop :=
  ∃ later, row ≠ later ∧ [row, later].Sublist rows ∧ ¬before row later

/-- The first session takes a row early that the second takes on top of another,
and the third takes that other row on top of one of its own. -/
def Clash (rows rows' rows'' : List R) : Prop :=
  ∃ row under, EarlyIn before rows row ∧ [under, row].Sublist rows' ∧ under ∈ rows''.tail

namespace Ward

/-- No open sessions clash; the first and the third may be the same. -/
def Clear (p : Ward R) : Prop :=
  ∀ l m n c c' c'', l ≠ m → m ≠ n → p.claimants l = some c → p.claimants m = some c' →
    p.claimants n = some c'' → ¬Clash before c.rows c'.rows c''.rows

def Admitted (p : Ward R) : WardStep R → Prop
  | .begin n rows => (p.apply (.begin n rows)).Clear before
  | _ => True

def Orderly : Ward R → List (WardStep R) → Prop
  | _, [] => True
  | p, step :: steps => p.Admitted before step ∧ Orderly (p.apply step) steps

/-- Held rows are on record with their holder, and open sessions do not clash. -/
structure Spaced (p : Ward R) : Prop where
  held : ∀ row n, p.holders row = some n → ∃ c, p.claimants n = some c ∧ row ∈ c.taken
  clear : p.Clear before

variable {before} {p p' : Ward R}

omit [DecidableEq R] in
theorem Spaced.empty : Spaced before (empty : Ward R) where
  held := fun _ _ h => nomatch h
  clear := fun _ _ _ _ _ _ _ _ h => nomatch h

omit [DecidableEq R] in
theorem Clear.mono (h : p.Clear before)
    (same : ∀ n c', p'.claimants n = some c' → ∃ c, p.claimants n = some c ∧ c'.rows = c.rows) :
    p'.Clear before := by
  intro l m n c c' c'' hlm hmn hl hm hn
  obtain ⟨d, hd, hrows⟩ := same l c hl
  obtain ⟨d', hd', hrows'⟩ := same m c' hm
  obtain ⟨d'', hd'', hrows''⟩ := same n c'' hn
  rw [hrows, hrows', hrows'']
  exact h l m n d d' d'' hlm hmn hd hd' hd''

theorem Spaced.apply (h : p.Spaced before) {step : WardStep R} (admitted : p.Admitted before step) :
    (p.apply step).Spaced before := by
  cases step with
  | begin n rows =>
      refine ⟨fun row m hrow => ?_, admitted⟩
      cases hn : p.claimants n with
      | some c =>
          simp only [Ward.apply, hn] at hrow ⊢
          exact h.held row m hrow
      | none =>
          simp only [Ward.apply, hn] at hrow ⊢
          obtain ⟨c, hm, htaken⟩ := h.held row m hrow
          have hmn : m ≠ n := by
            rintro rfl
            rw [hn] at hm
            cases hm
          exact ⟨c, by simp [hmn, hm], htaken⟩
  | take n =>
      cases hn : p.claimants n with
      | none => simpa only [Ward.apply, hn] using h
      | some c =>
          obtain ⟨taken, wanted⟩ := c
          cases wanted with
          | nil => simpa only [Ward.apply, hn] using h
          | cons row wanted =>
              simp only [Ward.apply, hn]
              split
              · constructor
                case held =>
                  intro row' m hrow
                  replace hrow : p.holders.take row n row' = some m := hrow
                  by_cases hmn : m = n
                  · subst hmn
                    refine ⟨⟨taken ++ [row], wanted⟩, by simp, ?_⟩
                    by_cases hr : row' = row
                    · simp [hr]
                    · rw [Holders.take, if_neg hr] at hrow
                      obtain ⟨c, hc, htaken⟩ := h.held row' m hrow
                      rw [hn, Option.some.injEq] at hc
                      subst hc
                      exact List.mem_append_left _ htaken
                  · have hr : row' ≠ row := by
                      rintro rfl
                      rw [Holders.take_self, Option.some.injEq] at hrow
                      exact hmn hrow.symm
                    rw [Holders.take, if_neg hr] at hrow
                    obtain ⟨c, hc, htaken⟩ := h.held row' m hrow
                    exact ⟨c, by simp [hmn, hc], htaken⟩
                case clear =>
                  apply h.clear.mono
                  intro m c' hm
                  by_cases hmn : m = n
                  · subst hmn
                    simp only [if_true, Option.some.injEq] at hm
                    subst hm
                    exact ⟨_, hn, by simp [Claimant.rows]⟩
                  · simp only [if_neg hmn] at hm
                    exact ⟨c', hm, rfl⟩
              · exact h
  | leave n =>
      constructor
      case held =>
        intro row m hrow
        simp only [Ward.apply, Holders.release] at hrow
        split at hrow
        · cases hrow
        · rename_i hne
          obtain ⟨c, hc, htaken⟩ := h.held row m hrow
          have hmn : m ≠ n := by
            rintro rfl
            exact hne hrow
          exact ⟨c, by simp [Ward.apply, hmn, hc], htaken⟩
      case clear =>
        apply h.clear.mono
        intro m c' hm
        simp only [Ward.apply] at hm
        split at hm
        · cases hm
        · exact ⟨c', hm, rfl⟩

theorem Spaced.run (h : p.Spaced before) {steps : List (WardStep R)}
    (orderly : p.Orderly before steps) : (steps.foldl Ward.apply p).Spaced before := by
  induction steps generalizing p with
  | nil => exact h
  | cons step steps ih => exact ih (h.apply orderly.1) orderly.2

def InOrder (before : R → R → Prop) : WardStep R → Prop
  | .begin _ rows => ∀ row, ¬EarlyIn before rows row
  | _ => True

omit [DecidableEq R] in
theorem Clear.of_inOrder
    (h : ∀ n c, p.claimants n = some c → ∀ row, ¬EarlyIn before c.rows row) :
    p.Clear before := by
  rintro l m n c c' c'' - - hl - - ⟨row, under, hearly, -⟩
  exact h l c hl row hearly

/-- Sessions that all keep to the order are orderly in any interleaving. -/
theorem orderly_of_inOrder {steps : List (WardStep R)}
    (open_ : ∀ n c, p.claimants n = some c → ∀ row, ¬EarlyIn before c.rows row)
    (inOrder : ∀ step ∈ steps, InOrder before step) : p.Orderly before steps := by
  induction steps generalizing p with
  | nil => trivial
  | cons step steps ih =>
      have hstep := inOrder step List.mem_cons_self
      have hnext : ∀ n c, (p.apply step).claimants n = some c →
          ∀ row, ¬EarlyIn before c.rows row := by
        intro n c hn
        cases step with
        | begin m rows =>
            cases hm : p.claimants m with
            | some d =>
                simp only [Ward.apply, hm] at hn
                exact open_ n c hn
            | none =>
                simp only [Ward.apply, hm] at hn
                split at hn
                · cases hn
                  exact hstep
                · exact open_ n c hn
        | take m =>
            cases hm : p.claimants m with
            | none =>
                simp only [Ward.apply, hm] at hn
                exact open_ n c hn
            | some d =>
                obtain ⟨taken, wanted⟩ := d
                cases wanted with
                | nil =>
                    simp only [Ward.apply, hm] at hn
                    exact open_ n c hn
                | cons row wanted =>
                    simp only [Ward.apply, hm] at hn
                    split at hn
                    · simp only at hn
                      split at hn
                      · cases hn
                        have hrows : Claimant.rows ⟨taken ++ [row], wanted⟩ =
                            Claimant.rows ⟨taken, row :: wanted⟩ := by simp [Claimant.rows]
                        rw [hrows]
                        exact open_ m _ hm
                      · exact open_ n c hn
                    · exact open_ n c hn
        | leave m =>
            simp only [Ward.apply] at hn
            split at hn
            · cases hn
            · exact open_ n c hn
      refine ⟨?_, ih hnext fun step' h => inOrder step' (List.mem_cons_of_mem step h)⟩
      cases step with
      | begin m rows => exact Clear.of_inOrder hnext
      | take | leave => trivial

def Wants (p : Ward R) (n : Nat) (row : R) : Prop :=
  ∃ c rest, p.claimants n = some c ∧ c.wanted = row :: rest

omit [DecidableEq R] in
theorem Wants.unique {n : Nat} {row row' : R} (h : p.Wants n row) (h' : p.Wants n row') :
    row = row' := by
  obtain ⟨c, rest, hc, hrow⟩ := h
  obtain ⟨c', rest', hc', hrow'⟩ := h'
  rw [hc, Option.some.injEq] at hc'
  subst hc'
  rw [hrow, List.cons.injEq] at hrow'
  exact hrow'.1

omit [DecidableEq R] in
theorem WaitsFor.wants {n m : Nat} (h : p.WaitsFor n m) :
    ∃ row, p.Wants n row ∧ p.holders row = some m ∧ m ≠ n := by
  obtain ⟨c, row, rest, hc, hrow, hheld, hne⟩ := h
  exact ⟨row, ⟨c, rest, hc, hrow⟩, hheld, hne⟩

omit [DecidableEq R] in
/-- A session that is waited for has taken the row, and what it waits for comes
later. -/
theorem Spaced.taken_first (h : p.Spaced before) {n : Nat} {z x : R} (hz : p.holders z = some n)
    (hx : p.Wants n x) : ∃ c, p.claimants n = some c ∧ [z, x].Sublist c.rows := by
  obtain ⟨c, rest, hn, hwanted⟩ := hx
  obtain ⟨d, hd, hztaken⟩ := h.held z n hz
  rw [hn, Option.some.injEq] at hd
  subst hd
  refine ⟨c, hn, ?_⟩
  unfold Claimant.rows
  rw [hwanted]
  have hfirst : [z].Sublist c.taken := List.singleton_sublist.mpr hztaken
  exact hfirst.append (List.singleton_sublist.mpr List.mem_cons_self)

omit [DecidableEq R] in
/-- Along three waits the order goes up: what `m` holds for `n` was not taken
early, since `n` and `k` both hold a row already. -/
theorem Spaced.before_of_waits (h : p.Spaced before) {j k n m l : Nat} (hjk : p.WaitsFor j k)
    (hkn : p.WaitsFor k n) (hnm : p.WaitsFor n m) (hml : p.WaitsFor m l) {x y : R}
    (hx : p.Wants n x) (hy : p.Wants m y) : before x y := by
  obtain ⟨u, -, hu, -⟩ := hjk.wants
  obtain ⟨z, hwz, hz, hnk⟩ := hkn.wants
  obtain ⟨x', hx', hheld, hmn⟩ := hnm.wants
  obtain ⟨y', hy', hheld', hlm⟩ := hml.wants
  cases hx.unique hx'
  cases hy.unique hy'
  obtain ⟨c, hm, hxy⟩ := h.taken_first hheld hy
  obtain ⟨c', hn, hzx⟩ := h.taken_first hz hx
  obtain ⟨c'', hk, huz⟩ := h.taken_first hu hwz
  have hne : x ≠ y := by
    rintro rfl
    rw [hheld, Option.some.injEq] at hheld'
    exact hlm hheld'.symm
  have htail : z ∈ c''.rows.tail := by
    have hsub := huz.tail
    exact List.singleton_sublist.mp hsub
  apply Classical.byContradiction
  intro hbefore
  exact h.clear m n k c c' c'' hmn hnk hm hn hk ⟨x, z, ⟨y, hne, hxy, hbefore⟩, hzx, htail⟩

omit [DecidableEq R] in
theorem exists_waitsFor {n m : Nat} (h : Relation.TransGen p.WaitsFor n m) :
    ∃ k, Relation.ReflTransGen p.WaitsFor n k ∧ p.WaitsFor k m := by
  cases h with
  | single h => exact ⟨n, .refl, h⟩
  | tail hpath hlast => exact ⟨_, hpath.to_reflTransGen, hlast⟩

omit [DecidableEq R] in
/-- Sessions that do not clash never wait in a circle. -/
theorem Spaced.no_circularWait (h : p.Spaced before) (irrefl : ∀ row, ¬before row row)
    (trans : ∀ x y z, before x y → before y z → before x z) : ¬p.CircularWait := by
  rintro ⟨n, hcycle⟩
  -- Everyone reached from `n` is waited for twice over: the circle has no first session.
  have hwaited : ∀ {m}, Relation.ReflTransGen p.WaitsFor n m →
      ∃ j k, p.WaitsFor j k ∧ p.WaitsFor k m := by
    intro m hpath
    obtain ⟨k, hnk, hkm⟩ := exists_waitsFor (hcycle.trans_left hpath)
    obtain ⟨j, -, hjk⟩ := exists_waitsFor (hcycle.trans_left hnk)
    exact ⟨j, k, hjk, hkm⟩
  have hchain : ∀ {m}, Relation.TransGen p.WaitsFor n m →
      ∀ {l x y}, p.WaitsFor m l → p.Wants n x → p.Wants m y → before x y := by
    intro m hpath
    induction hpath with
    | single hnm =>
        intro l x y hml hx hy
        obtain ⟨j, k, hjk, hkn⟩ := hwaited .refl
        exact h.before_of_waits hjk hkn hnm hml hx hy
    | @tail b m hnb hbm ih =>
        intro l x y hml hx hy
        obtain ⟨z, hz, -⟩ := hbm.wants
        obtain ⟨j, k, hjk, hkb⟩ := hwaited hnb.to_reflTransGen
        exact trans x z y (ih hbm hx hz) (h.before_of_waits hjk hkb hbm hml hz hy)
  obtain ⟨l, hnl, -⟩ := Relation.TransGen.head'_iff.mp hcycle
  obtain ⟨x, hx, -⟩ := hnl.wants
  exact irrefl x (hchain hcycle hnl hx hx)

end Ward
end Order
end Locks
