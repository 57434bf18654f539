import CoderManager.Lib.Text

/-!
# Redaction

White space is collapsed, and words are replaced one after another by one text that
stands between two brackets. A word without a bracket that a replacement removed is
not brought back by a later one.
-/
namespace Texts

variable {α : Type}

section Words
variable (isSpace : α → Bool) (blank : α)

def words (xs : List α) : List (List α) := (xs.splitOnP isSpace).filter fun word => !word.isEmpty

def collapse (xs : List α) : List α := [blank].intercalate (words isSpace xs)

/-- Nothing is left to collapse. `spaced` says that a blank, or nothing, comes before. -/
def Tidy : Bool → List α → Prop
  | spaced, [] => spaced = false
  | spaced, x :: xs =>
      if isSpace x then x = blank ∧ spaced = false ∧ Tidy true xs else Tidy false xs

variable {isSpace : α → Bool} {blank : α}

theorem not_isSpace_of_mem_splitOnP {xs word : List α} (hword : word ∈ xs.splitOnP isSpace) :
    ∀ x ∈ word, isSpace x = false := by
  induction xs generalizing word with
  | nil =>
      rw [List.splitOnP_nil, List.mem_singleton] at hword
      intro x hx
      rw [hword] at hx
      cases hx
  | cons y xs ih =>
      rw [List.splitOnP_cons_eq_if_modifyHead] at hword
      split at hword
      · rcases List.mem_cons.mp hword with rfl | hrest
        · intro x hx
          cases hx
        · exact ih hrest
      · rename_i hy
        cases hsplit : xs.splitOnP isSpace with
        | nil => exact absurd hsplit (List.splitOnP_ne_nil _ _)
        | cons head rest =>
            rw [hsplit, List.modifyHead_cons] at hword
            rcases List.mem_cons.mp hword with rfl | hrest
            · intro x hx
              rcases List.mem_cons.mp hx with rfl | hx
              · simpa using hy
              · exact ih (hsplit ▸ List.mem_cons_self) x hx
            · exact ih (hsplit ▸ List.mem_cons_of_mem _ hrest)

theorem mem_words {xs word : List α} (hword : word ∈ words isSpace xs) :
    word ≠ [] ∧ ∀ x ∈ word, isSpace x = false := by
  obtain ⟨hmem, hne⟩ := List.mem_filter.mp hword
  exact ⟨by simpa using hne, not_isSpace_of_mem_splitOnP hmem⟩

theorem tidy_append_of_word {spaced : Bool} {word rest : List α} (hne : word ≠ [])
    (hword : ∀ x ∈ word, isSpace x = false) :
    Tidy isSpace blank spaced (word ++ rest) ↔ Tidy isSpace blank false rest := by
  induction word generalizing spaced with
  | nil => exact absurd rfl hne
  | cons x word ih =>
      have hx : isSpace x = false := hword x List.mem_cons_self
      rw [List.cons_append, Tidy, if_neg (by simp [hx])]
      cases word with
      | nil => rfl
      | cons y word =>
          apply ih (List.cons_ne_nil _ _)
          intro z hz
          exact hword z (List.mem_cons_of_mem _ hz)

theorem tidy_intercalate (hblank : isSpace blank = true) {ws : List (List α)} (hne : ws ≠ [])
    (hws : ∀ word ∈ ws, word ≠ [] ∧ ∀ x ∈ word, isSpace x = false) :
    Tidy isSpace blank true ([blank].intercalate ws) := by
  induction ws with
  | nil => exact absurd rfl hne
  | cons word ws ih =>
      obtain ⟨hword, hspace⟩ := hws word List.mem_cons_self
      cases hrest : ws with
      | nil =>
          rw [List.intercalate_singleton, ← List.append_nil word,
            tidy_append_of_word hword hspace]
          rfl
      | cons next rest =>
          rw [List.intercalate_cons_of_ne_nil (List.cons_ne_nil _ _), List.append_assoc,
            tidy_append_of_word hword hspace, List.singleton_append, Tidy, if_pos hblank, ← hrest]
          refine ⟨rfl, rfl, ih (by simp [hrest]) ?_⟩
          intro w hw
          exact hws w (List.mem_cons_of_mem _ hw)

theorem collapse_eq_nil_or_tidy (hblank : isSpace blank = true) (xs : List α) :
    collapse isSpace blank xs = [] ∨ Tidy isSpace blank true (collapse isSpace blank xs) := by
  unfold collapse
  cases hwords : words isSpace xs with
  | nil => exact .inl rfl
  | cons word rest =>
      rw [← hwords]
      apply Or.inr
      apply tidy_intercalate hblank (by simp [hwords])
      intro w hw
      exact mem_words hw

theorem Tidy.eq_blank {spaced : Bool} {xs : List α} (h : Tidy isSpace blank spaced xs) :
    ∀ x ∈ xs, isSpace x = true → x = blank := by
  induction xs generalizing spaced with
  | nil =>
      intro x hx
      cases hx
  | cons y xs ih =>
      intro x hx hspace
      rw [Tidy] at h
      split at h
      · rcases List.mem_cons.mp hx with rfl | hx
        · exact h.1
        · exact ih h.2.2 x hx hspace
      · rename_i hy
        rcases List.mem_cons.mp hx with rfl | hx
        · exact absurd hspace hy
        · exact ih h x hx hspace

theorem intercalate_splitOnP {xs : List α} (hblank : ∀ x ∈ xs, isSpace x = true → x = blank) :
    [blank].intercalate (xs.splitOnP isSpace) = xs := by
  induction xs with
  | nil => rfl
  | cons x xs ih =>
      have hrest := ih fun y hy => hblank y (List.mem_cons_of_mem _ hy)
      rw [List.splitOnP_cons_eq_if_modifyHead]
      split
      · rename_i hx
        rw [List.intercalate_cons_of_ne_nil (List.splitOnP_ne_nil _ _), hrest,
          hblank x List.mem_cons_self hx]
        rfl
      · cases hsplit : xs.splitOnP isSpace with
        | nil => exact absurd hsplit (List.splitOnP_ne_nil _ _)
        | cons head rest =>
            rw [hsplit] at hrest
            rw [List.modifyHead_cons, ← hrest]
            cases rest with
            | nil => simp [List.intercalate_singleton]
            | cons next rest => simp [List.intercalate_cons_cons]

theorem Tidy.pieces {xs : List α} :
    (Tidy isSpace blank true xs → ∀ piece ∈ xs.splitOnP isSpace, piece ≠ []) ∧
      (Tidy isSpace blank false xs → ∀ piece ∈ (xs.splitOnP isSpace).tail, piece ≠ []) := by
  induction xs with
  | nil =>
      constructor
      · intro h
        cases h
      · intro _ piece hpiece
        cases hpiece
  | cons x xs ih =>
      simp only [Tidy]
      rw [List.splitOnP_cons_eq_if_modifyHead]
      split
      · constructor
        · intro h
          cases h.2.1
        · intro h
          exact ih.1 h.2.2
      · cases hsplit : xs.splitOnP isSpace with
        | nil => exact absurd hsplit (List.splitOnP_ne_nil _ _)
        | cons head rest =>
            rw [hsplit] at ih
            rw [List.modifyHead_cons]
            constructor
            · intro h piece hpiece
              rcases List.mem_cons.mp hpiece with rfl | hrest
              · exact List.cons_ne_nil _ _
              · exact ih.2 h piece hrest
            · exact ih.2

theorem collapse_of_tidy {xs : List α} (h : Tidy isSpace blank true xs) :
    collapse isSpace blank xs = xs := by
  have hwords : words isSpace xs = xs.splitOnP isSpace := by
    apply List.filter_eq_self.mpr
    intro piece hpiece
    simpa using Tidy.pieces.1 h piece hpiece
  rw [collapse, hwords, intercalate_splitOnP h.eq_blank]

theorem collapse_of_nil_or_tidy {xs : List α} (h : xs = [] ∨ Tidy isSpace blank true xs) :
    collapse isSpace blank xs = xs := by
  rcases h with rfl | h
  · rfl
  · exact collapse_of_tidy h

end Words

section Occurrences

theorem infix_append_cons {word before after : List α} {x : α} (hx : x ∉ word)
    (h : word <:+: before ++ x :: after) : word <:+: before ∨ word <:+: after := by
  obtain ⟨left, right, heq⟩ := h
  rcases List.append_eq_append_iff.mp heq with ⟨rest, hbefore, -⟩ | ⟨rest, hleft, hright⟩
  · exact .inl ⟨left, rest, hbefore.symm⟩
  · cases rest with
    | nil =>
        rw [List.append_nil] at hleft
        exact .inl ⟨left, [], by rw [List.append_nil, hleft]⟩
    | cons y rest =>
        obtain ⟨rfl, -⟩ := List.cons.inj hright
        rcases List.append_eq_append_iff.mp hleft with ⟨tail, hbefore, hword⟩ | ⟨tail, hl, hr⟩
        · exact absurd (hword ▸ List.mem_append_right _ List.mem_cons_self) hx
        · cases tail with
          | nil =>
            have hmem : x ∈ [] ++ word := by
              rw [← hr]
              exact List.mem_cons_self
            exact absurd hmem hx
          | cons z tail =>
              obtain ⟨-, hrest⟩ := List.cons.inj hr
              refine .inr ⟨tail, right, ?_⟩
              have hafter := (List.cons.inj hright).2
              rw [hrest] at hafter
              exact hafter.symm

theorem not_infix_nil {word : List α} (hne : word ≠ []) : ¬word <:+: [] := by
  intro h
  exact hne (List.eq_nil_of_infix_nil h)

end Occurrences

section Redacting
variable [DecidableEq α] {opening closing : α} {label old word : List α}

theorem prefix_replaceFrom (hold : old ≠ []) (hopening : opening ∉ word) {xs : List α}
    (h : word <+: replaceFrom old (opening :: label ++ [closing]) 0 xs) :
    word <+: xs ∧ ¬old <:+: word := by
  induction xs generalizing word with
  | nil =>
      rw [replaceFrom, List.prefix_nil] at h
      rw [h]
      exact ⟨List.nil_prefix, not_infix_nil hold⟩
  | cons x xs ih =>
      cases word with
      | nil => exact ⟨List.nil_prefix, not_infix_nil hold⟩
      | cons y word =>
          rw [replaceFrom] at h
          split at h
          · obtain ⟨rfl, -⟩ := List.cons_prefix_cons.mp h
            exact absurd List.mem_cons_self hopening
          · rename_i hnone
            obtain ⟨rfl, hrest⟩ := List.cons_prefix_cons.mp h
            obtain ⟨hfront, hword⟩ := ih (fun hmem => hopening (List.mem_cons_of_mem _ hmem)) hrest
            have hhead : y :: word <+: y :: xs := List.cons_prefix_cons.mpr ⟨rfl, hfront⟩
            refine ⟨hhead, fun hold' => ?_⟩
            rcases List.infix_cons_iff.mp hold' with hstart | hlater
            · exact hnone (hstart.trans hhead)
            · exact hword hlater

/-- A word without a bracket stands in the label, or it stood in the text. -/
theorem infix_replaceFrom (hold : old ≠ []) (hopening : opening ∉ word) (hclosing : closing ∉ word)
    {skip : Nat} {xs : List α}
    (h : word <:+: replaceFrom old (opening :: label ++ [closing]) skip xs) :
    word <:+: label ∨ (word <:+: xs ∧ ¬old <:+: word) := by
  induction xs generalizing skip with
  | nil =>
      rw [replaceFrom.eq_def] at h
      have hword : word = [] := List.eq_nil_of_infix_nil (by simpa using h)
      rw [hword]
      exact .inl (List.nil_infix)
  | cons x xs ih =>
      cases skip with
      | succ skip =>
          rw [replaceFrom] at h
          exact (ih h).imp_right fun hrest => ⟨hrest.1.trans (List.suffix_cons _ _).isInfix, hrest.2⟩
      | zero =>
          by_cases hhead : old <+: x :: xs
          · rw [replaceFrom, if_pos hhead, List.append_assoc, List.singleton_append] at h
            rcases infix_append_cons hclosing h with hlabel | hrest
            · rcases infix_append_cons hopening
                (show word <:+: [] ++ opening :: label from hlabel) with hnil | hlabel
              · rw [List.eq_nil_of_infix_nil hnil]
                exact .inl List.nil_infix
              · exact .inl hlabel
            · exact (ih hrest).imp_right fun hrest =>
                ⟨hrest.1.trans (List.suffix_cons _ _).isInfix, hrest.2⟩
          · have hstep : replaceFrom old (opening :: label ++ [closing]) 0 (x :: xs) =
                x :: replaceFrom old (opening :: label ++ [closing]) 0 xs := by
              rw [replaceFrom, if_neg hhead]
            rw [hstep] at h
            rcases List.infix_cons_iff.mp h with hstart | hlater
            · have hfound := prefix_replaceFrom hold hopening (hstep ▸ hstart)
              exact .inr ⟨hfound.1.isInfix, hfound.2⟩
            · exact (ih hlater).imp_right fun hrest =>
                ⟨hrest.1.trans (List.suffix_cons _ _).isInfix, hrest.2⟩

def redact (new : List α) (olds : List (List α)) (xs : List α) : List α :=
  olds.foldl (fun text old => replaceAll old new text) xs

/-- A word that stands in the redacted text stood there before, and no redacted word is
part of it. -/
theorem infix_redact {olds : List (List α)} (holds : ∀ old ∈ olds, old ≠ [])
    (hopening : opening ∉ word) (hclosing : closing ∉ word) (hlabel : ¬word <:+: label)
    {xs : List α} (h : word <:+: redact (opening :: label ++ [closing]) olds xs) :
    word <:+: xs ∧ ∀ old ∈ olds, ¬old <:+: word := by
  induction olds generalizing xs with
  | nil =>
      refine ⟨h, fun old hold => ?_⟩
      cases hold
  | cons old olds ih =>
      obtain ⟨hstood, hrest⟩ := ih (fun o ho => holds o (List.mem_cons_of_mem _ ho)) h
      rcases infix_replaceFrom (holds old List.mem_cons_self) hopening hclosing hstood with
        hin | ⟨hbefore, hnone⟩
      · exact absurd hin hlabel
      · refine ⟨hbefore, fun o ho => ?_⟩
        rcases List.mem_cons.mp ho with rfl | ho
        · exact hnone
        · exact hrest o ho

theorem replaceAll_of_not_infix {new xs : List α} (h : ¬old <:+: xs) : replaceAll old new xs = xs := by
  unfold replaceAll
  induction xs with
  | nil => rfl
  | cons x xs ih =>
      have hhead : ¬old <+: x :: xs := fun hfront => h hfront.isInfix
      rw [replaceFrom, if_neg hhead]
      rw [ih fun hrest => h (hrest.trans (List.suffix_cons _ _).isInfix)]

theorem redact_of_not_infix {new : List α} {olds : List (List α)} {xs : List α}
    (h : ∀ old ∈ olds, ¬old <:+: xs) : redact new olds xs = xs := by
  induction olds with
  | nil => rfl
  | cons old olds ih =>
      rw [redact, List.foldl_cons, replaceAll_of_not_infix (h old List.mem_cons_self)]
      exact ih fun o ho => h o (List.mem_cons_of_mem _ ho)

end Redacting

section Tidiness
variable [DecidableEq α] {isSpace : α → Bool} {blank : α} {new old : List α}

/-- A replacement by a word without white space leaves a tidy text tidy, also when it
starts inside an occurrence that is being skipped. -/
theorem tidy_replaceFrom (hne : new ≠ []) (hnew : ∀ x ∈ new, isSpace x = false) {spaced : Bool}
    {skip : Nat} {xs : List α} (h : Tidy isSpace blank spaced xs) :
    (skip = 0 → Tidy isSpace blank spaced (replaceFrom old new skip xs)) ∧
      Tidy isSpace blank false (replaceFrom old new skip xs) := by
  induction xs generalizing spaced skip with
  | nil =>
      rw [replaceFrom.eq_def]
      exact ⟨fun _ => h, rfl⟩
  | cons x xs ih =>
      obtain ⟨later, hlater⟩ : ∃ later, Tidy isSpace blank later xs := by
        rw [Tidy] at h
        split at h
        · exact ⟨true, h.2.2⟩
        · exact ⟨false, h⟩
      cases skip with
      | succ skip =>
          rw [replaceFrom]
          refine ⟨fun hskip => ?_, (ih hlater).2⟩
          cases hskip
      | zero =>
          rw [replaceFrom]
          split
          · rw [tidy_append_of_word hne hnew, tidy_append_of_word hne hnew]
            exact ⟨fun _ => (ih hlater).2, (ih hlater).2⟩
          · rw [Tidy] at h
            simp only [Tidy]
            split at h
            · rename_i hx
              have hrest := (ih h.2.2).1 rfl
              rw [if_pos hx, if_pos hx]
              exact ⟨fun _ => ⟨h.1, h.2.1, hrest⟩, h.1, trivial, hrest⟩
            · rename_i hx
              have hrest := (ih h).1 rfl
              rw [if_neg hx, if_neg hx]
              exact ⟨fun _ => hrest, hrest⟩

theorem tidy_redact (hne : new ≠ []) (hnew : ∀ x ∈ new, isSpace x = false)
    (olds : List (List α)) {xs : List α} (h : xs = [] ∨ Tidy isSpace blank true xs) :
    redact new olds xs = [] ∨ Tidy isSpace blank true (redact new olds xs) := by
  induction olds generalizing xs with
  | nil => exact h
  | cons old olds ih =>
      rw [redact, List.foldl_cons]
      apply ih
      rcases h with rfl | h
      · exact .inl rfl
      · exact .inr ((tidy_replaceFrom hne hnew h).1 rfl)

end Tidiness

section Cutting
variable {isSpace : α → Bool} {blank : α}

theorem tidy_take_append {dots : List α} (hne : dots ≠ []) (hdots : ∀ x ∈ dots, isSpace x = false)
    {spaced : Bool} {xs : List α} (h : Tidy isSpace blank spaced xs) (n : Nat) :
    Tidy isSpace blank spaced (xs.take n ++ dots) := by
  have hend : ∀ spaced, Tidy isSpace blank spaced dots := by
    intro spaced
    rw [← List.append_nil dots, tidy_append_of_word hne hdots]
    rfl
  induction xs generalizing spaced n with
  | nil =>
      rw [List.take_nil, List.nil_append]
      exact hend spaced
  | cons x xs ih =>
      cases n with
      | zero => exact hend spaced
      | succ n =>
          rw [List.take_succ_cons, List.cons_append]
          rw [Tidy] at h ⊢
          split
          · rename_i hx
            rw [if_pos hx] at h
            exact ⟨h.1, h.2.1, ih h.2.2 n⟩
          · rename_i hx
            rw [if_neg hx] at h
            exact ih h n

theorem infix_of_infix_append_replicate {word xs : List α} {dot : α} {n : Nat} (hne : word ≠ [])
    (hdot : dot ∉ word) (h : word <:+: xs ++ List.replicate n dot) : word <:+: xs := by
  cases n with
  | zero => simpa using h
  | succ n =>
      rw [List.replicate_succ] at h
      rcases infix_append_cons hdot h with hxs | hdots
      · exact hxs
      · cases word with
        | nil => exact absurd rfl hne
        | cons x word =>
            have hx := List.eq_of_mem_replicate (hdots.subset List.mem_cons_self)
            exact absurd (hx ▸ List.mem_cons_self) hdot

end Cutting
end Texts
