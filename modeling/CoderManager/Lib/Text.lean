import Mathlib.Data.List.Basic
import Mathlib.Data.List.Infix

/-!
# Texts

A text is a list of characters. The occurrences of a word are replaced from left to
right. A mark quotes the character after it, so that a value may hold what separates
two values.
-/
namespace Texts

variable {α : Type}

section Replacing
variable [DecidableEq α]

/-- The first `skip` characters belong to the occurrence that was replaced last. -/
def replaceFrom (old new : List α) : Nat → List α → List α
  | _, [] => []
  | skip + 1, _ :: xs => replaceFrom old new skip xs
  | 0, x :: xs =>
      if old <+: x :: xs then new ++ replaceFrom old new (old.length - 1) xs
      else x :: replaceFrom old new 0 xs

/-- Every occurrence of a word that is not empty is replaced. -/
def replaceAll (old new xs : List α) : List α := replaceFrom old new 0 xs

theorem replaceAll_singleton (x : α) (new xs : List α) :
    replaceAll [x] new xs = xs.flatMap fun y => if y = x then new else [y] := by
  unfold replaceAll
  induction xs with
  | nil => rfl
  | cons y xs ih =>
      rw [replaceFrom, List.flatMap_cons]
      by_cases hxy : y = x
      · subst y
        rw [if_pos (by simp), if_pos rfl, List.length_singleton, ih]
      · have hne : ¬[x] <+: y :: xs := by
          intro h
          exact hxy (List.cons_prefix_cons.mp h).1.symm
        rw [if_neg hne, if_neg hxy, ih, List.singleton_append]

end Replacing

section Quoting
variable [DecidableEq α] (mark separator equal : α)

/-- A mark stands before every mark and every separator. -/
def quote (value : List α) : List α :=
  value.flatMap fun x => if x = mark ∨ x = separator then [mark, x] else [x]

theorem replaceAll_quote (hne : mark ≠ separator) (value : List α) :
    replaceAll [separator] [mark, separator] (replaceAll [mark] [mark, mark] value) =
      quote mark separator value := by
  rw [replaceAll_singleton, replaceAll_singleton, List.flatMap_assoc]
  apply List.flatMap_congr
  intro x _
  by_cases hmark : x = mark
  · subst x
    simp [hne]
  · by_cases hsep : x = separator
    · subst x
      simp [hmark]
    · simp [hmark, hsep]

/-- What is being read of an assignment. -/
inductive Reading (α : Type) where
  | name (name : List α)
  | value (name value : List α)
  | quoted (name value : List α)

/-- Assignments from left to right. A name reaches to the first equality sign, a mark
makes the next character literal, and a separator starts another assignment. -/
def assignments : Reading α → List α → List (List α × List α)
  | .name name, [] => [(name, [])]
  | .name name, x :: xs =>
      if x = equal then assignments (.value name []) xs
      else assignments (.name (name ++ [x])) xs
  | .value name value, [] => [(name, value)]
  | .value name value, x :: xs =>
      if x = mark then assignments (.quoted name value) xs
      else if x = separator then (name, value) :: assignments (.name []) xs
      else assignments (.value name (value ++ [x])) xs
  | .quoted name value, [] => [(name, value)]
  | .quoted name value, x :: xs => assignments (.value name (value ++ [x])) xs

theorem assignments_quote (name read value : List α) :
    assignments mark separator equal (.value name read) (quote mark separator value) =
      [(name, read ++ value)] := by
  induction value generalizing read with
  | nil => simp [quote, assignments]
  | cons x value ih =>
      have hcons : quote mark separator (x :: value) =
          (if x = mark ∨ x = separator then [mark, x] else [x]) ++ quote mark separator value := by
        simp [quote]
      rw [hcons]
      by_cases hx : x = mark ∨ x = separator
      · rw [if_pos hx]
        simp only [List.cons_append, List.nil_append, assignments, if_pos]
        rw [ih, List.append_assoc, List.singleton_append]
      · obtain ⟨hmark, hsep⟩ := not_or.mp hx
        rw [if_neg hx]
        simp only [List.cons_append, List.nil_append, assignments, if_neg hmark, if_neg hsep]
        rw [ih, List.append_assoc, List.singleton_append]

theorem assignments_name (read name rest : List α) (hname : equal ∉ name) :
    assignments mark separator equal (.name read) (name ++ equal :: rest) =
      assignments mark separator equal (.value (read ++ name) []) rest := by
  induction name generalizing read with
  | nil => simp [assignments]
  | cons x name ih =>
      obtain ⟨hx, hrest⟩ := List.ne_and_not_mem_of_not_mem_cons hname
      rw [List.cons_append, assignments, if_neg (Ne.symm hx), ih _ hrest, List.append_assoc,
        List.singleton_append]

theorem assignments_name_quote (name value : List α) (hname : equal ∉ name) :
    assignments mark separator equal (.name []) (name ++ equal :: quote mark separator value) =
      [(name, value)] := by
  rw [assignments_name mark separator equal [] name _ hname, assignments_quote, List.nil_append,
    List.nil_append]

theorem not_mem_quote {x : α} {value : List α} (hmark : x ≠ mark) (hx : x ∉ value) :
    x ∉ quote mark separator value := by
  intro h
  obtain ⟨y, hy, hxy⟩ := List.mem_flatMap.mp h
  have hne : x ≠ y := fun heq => hx (heq ▸ hy)
  split at hxy
  · simp [hmark, hne] at hxy
  · simp [hne] at hxy

end Quoting

section Splitting
variable [DecidableEq α]

theorem not_mem_of_mem_splitOn {separator : α} {xs piece : List α}
    (hpiece : piece ∈ xs.splitOn separator) : separator ∉ piece := by
  induction xs generalizing piece with
  | nil =>
      rw [List.splitOn_nil, List.mem_singleton] at hpiece
      rw [hpiece]
      exact List.not_mem_nil
  | cons x xs ih =>
      rw [List.splitOn_cons_eq_if_modifyHead] at hpiece
      split at hpiece
      · rcases List.mem_cons.mp hpiece with rfl | hrest
        · exact List.not_mem_nil
        · exact ih hrest
      · rename_i hne
        cases hsplit : xs.splitOn separator with
        | nil => exact absurd hsplit (List.splitOn_ne_nil _ _)
        | cons head rest =>
            rw [hsplit, List.modifyHead_cons] at hpiece
            rcases List.mem_cons.mp hpiece with rfl | hrest
            · intro h
              rcases List.mem_cons.mp h with heq | hmem
              · exact hne (by simp [heq])
              · exact ih (hsplit ▸ List.mem_cons_self) hmem
            · exact ih (hsplit ▸ List.mem_cons_of_mem _ hrest)

end Splitting

section Strings

def replace (value old new : String) : String :=
  .ofList (replaceAll old.toList new.toList value.toList)

def splitAt (value : String) (separator : Char) : List String :=
  (value.toList.splitOn separator).map .ofList

theorem not_mem_of_mem_splitAt {value piece : String} {separator : Char}
    (hpiece : piece ∈ splitAt value separator) : separator ∉ piece.toList := by
  obtain ⟨chars, hchars, rfl⟩ := List.mem_map.mp hpiece
  rw [String.toList_ofList]
  exact not_mem_of_mem_splitOn hchars

theorem splitAt_intercalate {values : List String} {glue : String} {separator : Char}
    (hglue : glue.toList = [separator]) (hvalues : ∀ value ∈ values, separator ∉ value.toList)
    (hne : values ≠ []) : splitAt (glue.intercalate values) separator = values := by
  have hpieces : ∀ chars ∈ values.map String.toList, separator ∉ chars := by
    intro chars hchars
    obtain ⟨value, hvalue, rfl⟩ := List.mem_map.mp hchars
    exact hvalues value hvalue
  have hsplit := List.splitOn_intercalate separator hpieces (by simpa using hne)
  rw [splitAt, String.toList_intercalate, hglue, hsplit, List.map_map]
  simp

end Strings

end Texts
