import CoderManager.Domains.CoderDiagnostics

/-!
# What diagnostics reveal

A remote message may repeat the secret values that a template import was given. It is
compared with them after its white space was collapsed; the values themselves are
taken as they are.
-/
namespace CoderManager
namespace CoderClient

section Secrets

/-- A value that can be told from the text that replaces it, and from an ellipsis. -/
def Protectable (value : String) : Prop :=
  collapsed value ≠ "" ∧ '<' ∉ (collapsed value).toList ∧ '>' ∉ (collapsed value).toList ∧
    '.' ∉ (collapsed value).toList ∧ ¬(collapsed value).toList <:+: "redacted".toList

instance (value : String) : Decidable (Protectable value) :=
  inferInstanceAs (Decidable (_ ∧ _ ∧ _ ∧ _ ∧ _))

/-- White space collapsed, the text holds none of these values. -/
def Hides (text : String) (sensitiveValues : List String) : Prop :=
  ∀ value ∈ sensitiveValues, Protectable value →
    ¬(collapsed value).toList <:+: (collapsed text).toList

/-- Each value, its white space collapsed, holds one that is redacted as it was given. -/
def Contained (sensitiveValues : List String) : Prop :=
  ∀ value ∈ sensitiveValues, Protectable value →
    ∃ given ∈ sensitiveValues, given ≠ "" ∧ given.toList <:+: (collapsed value).toList

end Secrets

section Sanitizing
variable {sensitiveValues : List String} {value : String} {maxChars : Nat}

theorem mem_longestFirst {given : String} :
    given ∈ longestFirst sensitiveValues ↔ given ∈ sensitiveValues ∧ given ≠ "" := by
  rw [longestFirst, (List.perm_insertionSort _ _).mem_iff, List.mem_filter]
  simp

def redacted (value : String) (sensitiveValues : List String) : List Char :=
  Texts.redact "<redacted>".toList ((longestFirst sensitiveValues).map String.toList)
    (collapsed value).toList

theorem toList_foldl_replace (olds : List String) (new text : String) :
    (olds.foldl (fun text old => Texts.replace text old new) text).toList =
      Texts.redact new.toList (olds.map String.toList) text.toList := by
  induction olds generalizing text with
  | nil => rfl
  | cons old olds ih =>
      rw [List.foldl_cons, ih, List.map_cons, Texts.redact, Texts.redact, List.foldl_cons,
        Texts.replace, String.toList_ofList]

theorem toList_sanitizeDiagnostic (hmax : 3 ≤ maxChars) :
    (sanitizeDiagnostic value sensitiveValues maxChars).1.toList =
      if maxChars < (redacted value sensitiveValues).length then
        (redacted value sensitiveValues).take (maxChars - 3) ++ List.replicate 3 '.'
      else redacted value sensitiveValues := by
  unfold sanitizeDiagnostic redacted
  rw [← toList_foldl_replace, String.length_toList]
  extract_lets sanitized
  split
  · rw [cutAt, if_pos hmax, String.toList_append, String.toList_ofList]
    rfl
  · rfl

theorem length_sanitizeDiagnostic (hmax : 3 ≤ maxChars) :
    (sanitizeDiagnostic value sensitiveValues maxChars).1.length ≤ maxChars := by
  rw [← String.length_toList, toList_sanitizeDiagnostic hmax]
  split
  · rw [List.length_append, List.length_take, List.length_replicate]
    omega
  · omega

theorem toList_collapsed (value : String) :
    (collapsed value).toList = Texts.collapse isSpace ' ' value.toList := by
  rw [collapsed, String.toList_ofList]

theorem redactedMark_plain : ∀ x ∈ "<redacted>".toList, isSpace x = false := by
  have hall : "<redacted>".toList.all (fun x => !isSpace x) = true := by decide +kernel
  simpa using List.all_eq_true.mp hall

theorem ellipsis_plain : ∀ x ∈ List.replicate 3 '.', isSpace x = false := by
  intro x hx
  rw [List.eq_of_mem_replicate hx]
  decide

theorem redacted_nil_or_tidy (value : String) (sensitiveValues : List String) :
    redacted value sensitiveValues = [] ∨
      Texts.Tidy isSpace ' ' true (redacted value sensitiveValues) := by
  apply Texts.tidy_redact (by decide) redactedMark_plain
  rw [toList_collapsed]
  exact Texts.collapse_eq_nil_or_tidy (by decide) _

theorem collapsed_sanitizeDiagnostic (hmax : 3 ≤ maxChars) :
    (collapsed (sanitizeDiagnostic value sensitiveValues maxChars).1).toList =
      (sanitizeDiagnostic value sensitiveValues maxChars).1.toList := by
  rw [toList_collapsed]
  apply Texts.collapse_of_nil_or_tidy
  rw [toList_sanitizeDiagnostic hmax]
  split
  · rename_i hlong
    apply Or.inr
    apply Texts.tidy_take_append (by decide) ellipsis_plain
    rcases redacted_nil_or_tidy value sensitiveValues with hnil | htidy
    · rw [hnil] at hlong
      exact absurd hlong (Nat.not_lt_zero _)
    · exact htidy
  · exact redacted_nil_or_tidy value sensitiveValues

/-- A word of the sanitized text that cannot be mistaken stood in the message, and holds
no value as it was given. -/
theorem infix_sanitizeDiagnostic {word : List Char} (hmax : 3 ≤ maxChars) (hne : word ≠ [])
    (hopening : '<' ∉ word) (hclosing : '>' ∉ word) (hdot : '.' ∉ word)
    (hlabel : ¬word <:+: "redacted".toList)
    (h : word <:+: (sanitizeDiagnostic value sensitiveValues maxChars).1.toList) :
    word <:+: (collapsed value).toList ∧
      ∀ given ∈ sensitiveValues, given ≠ "" → ¬given.toList <:+: word := by
  rw [toList_sanitizeDiagnostic hmax] at h
  have hredacted : word <:+: redacted value sensitiveValues := by
    split at h
    · exact (Texts.infix_of_infix_append_replicate hne hdot h).trans
        (List.take_prefix _ _).isInfix
    · exact h
  have holds : ∀ old ∈ (longestFirst sensitiveValues).map String.toList, old ≠ [] := by
    intro old hold
    obtain ⟨given, hgiven, rfl⟩ := List.mem_map.mp hold
    have hnonempty := (mem_longestFirst.mp hgiven).2
    simpa using hnonempty
  obtain ⟨hstood, hnone⟩ := Texts.infix_redact holds hopening hclosing hlabel hredacted
  refine ⟨hstood, fun given hgiven hnonempty => ?_⟩
  apply hnone
  exact List.mem_map_of_mem (mem_longestFirst.mpr ⟨hgiven, hnonempty⟩)

theorem hides_sanitizeDiagnostic (contained : Contained sensitiveValues) (hmax : 3 ≤ maxChars) :
    Hides (sanitizeDiagnostic value sensitiveValues maxChars).1 sensitiveValues := by
  intro secret hsecret protectable h
  obtain ⟨given, hgiven, hnonempty, hin⟩ := contained secret hsecret protectable
  obtain ⟨hne, hopening, hclosing, hdot, hlabel⟩ := protectable
  rw [collapsed_sanitizeDiagnostic hmax] at h
  have hword : (collapsed secret).toList ≠ [] := by simpa using hne
  have hnone := (infix_sanitizeDiagnostic hmax hword hopening hclosing hdot hlabel h).2
  exact hnone given hgiven hnonempty hin

/-- A message that no value is part of, and that fits, is reported as it is. -/
theorem sanitizeDiagnostic_of_not_infix (hmax : 3 ≤ maxChars)
    (hfits : (collapsed value).length ≤ maxChars)
    (hnone : ∀ given ∈ sensitiveValues, given ≠ "" → ¬given.toList <:+: (collapsed value).toList) :
    (sanitizeDiagnostic value sensitiveValues maxChars).1.toList = (collapsed value).toList := by
  have hsame : redacted value sensitiveValues = (collapsed value).toList := by
    apply Texts.redact_of_not_infix
    intro old hold
    obtain ⟨given, hgiven, rfl⟩ := List.mem_map.mp hold
    obtain ⟨hmem, hnonempty⟩ := mem_longestFirst.mp hgiven
    exact hnone given hmem hnonempty
  rw [toList_sanitizeDiagnostic hmax, hsame, String.length_toList, if_neg (by omega)]

end Sanitizing

section Logs
variable {sensitiveValues : List String}

theorem dropUntilFits_spec (maxChars : Nat) (lines : List String) :
    (dropUntilFits maxChars lines).1 <:+ lines ∧
      ((dropUntilFits maxChars lines).1.map fun line => line.length + 1).sum ≤ maxChars := by
  induction lines with
  | nil => exact ⟨List.suffix_rfl, Nat.zero_le _⟩
  | cons line rest ih =>
      rw [dropUntilFits]
      split
      · exact ⟨ih.1.trans (List.suffix_cons _ _), ih.2⟩
      · rename_i hfits
        exact ⟨List.suffix_rfl, Nat.le_of_not_lt hfits⟩

/-- The last entries of a log, those that are not well formed left out. -/
def lastEntries (payload : List Json) : List String :=
  (payload.drop (payload.length - templateImportLogMaxEntries)).filterMap logEntryText

theorem templateVersionLogs_spec {versionId : UUID} {response : Response} {lines : List String}
    {truncated : Bool}
    (h : templateVersionLogs versionId response sensitiveValues = .ok (lines, truncated)) :
    (lines.map fun line => line.length + 1).sum ≤ templateImportLogMaxChars ∧
      ∃ payload, response.body = some (.arr payload) ∧
        lines <:+ (lastEntries payload).map fun text =>
          (sanitizeDiagnostic text sensitiveValues templateImportLogMaxChars).1 := by
  unfold templateVersionLogs raiseForResponse jsonArray at h
  split at h
  · split at h
    · cases h
    · rename_i items hbody
      split at h
      · obtain ⟨hsuffix, hsum⟩ := dropUntilFits_spec templateImportLogMaxChars
          ((lastEntries items).map fun text =>
            (sanitizeDiagnostic text sensitiveValues templateImportLogMaxChars).1)
        have hlines : (dropUntilFits templateImportLogMaxChars ((lastEntries items).map fun text =>
            (sanitizeDiagnostic text sensitiveValues templateImportLogMaxChars).1)).1 = lines :=
          congrArg Prod.fst (Except.ok.inj h)
        rw [hlines] at hsuffix hsum
        exact ⟨hsum, items, hbody, hsuffix⟩
      · cases h
    · cases h
  · cases h

end Logs

section Result

/-- Diagnostics keep within their bounds, and they hide the values they were given if and
only if each value holds, its white space collapsed, one of them as it was given. -/
theorem diagnostics_hide_iff (sensitiveValues : List String) :
    ((∀ value maxChars, 3 ≤ maxChars →
        Hides (sanitizeDiagnostic value sensitiveValues maxChars).1 sensitiveValues ∧
        (sanitizeDiagnostic value sensitiveValues maxChars).1.length ≤ maxChars) ∧
      ∀ versionId response lines truncated,
        templateVersionLogs versionId response sensitiveValues = .ok (lines, truncated) →
        (∀ line ∈ lines, Hides line sensitiveValues ∧
          line.length ≤ templateImportLogMaxChars) ∧
        (lines.map fun line => line.length + 1).sum ≤ templateImportLogMaxChars ∧
        ∃ payload, response.body = some (.arr payload) ∧
          lines <:+ (lastEntries payload).map fun text =>
            (sanitizeDiagnostic text sensitiveValues templateImportLogMaxChars).1) ↔
      Contained sensitiveValues := by
  constructor
  · intro ⟨hides, _⟩ secret hsecret protectable
    by_contra hnone
    simp only [not_exists, not_and] at hnone
    -- a message that is the value itself, with room for it
    have hmax : 3 ≤ max 3 (collapsed secret).length := le_max_left _ _
    apply (hides secret _ hmax).1 secret hsecret protectable
    rw [collapsed_sanitizeDiagnostic hmax,
      sanitizeDiagnostic_of_not_infix hmax (le_max_right _ _) hnone]
  · intro contained
    constructor
    · intro value maxChars hmax
      exact ⟨hides_sanitizeDiagnostic contained hmax, length_sanitizeDiagnostic hmax⟩
    · intro versionId response lines truncated h
      obtain ⟨hsum, payload, hbody, hsuffix⟩ := templateVersionLogs_spec h
      refine ⟨fun line hline => ?_, hsum, payload, hbody, hsuffix⟩
      obtain ⟨text, -, rfl⟩ := List.mem_map.mp (hsuffix.subset hline)
      exact ⟨hides_sanitizeDiagnostic contained (by decide), length_sanitizeDiagnostic (by decide)⟩

/-- A key of two lines is reported in full: the message lost its line break, and the key
did not. -/
theorem two_line_key_is_revealed :
    ¬∀ (value : String) (sensitiveValues : List String),
      Hides (sanitizeDiagnostic value sensitiveValues templateImportErrorMaxChars).1
        sensitiveValues := by
  intro h
  have hides := h "bad key k1\nk2" ["k1\nk2"] "k1\nk2" (List.mem_singleton.mpr rfl) (by decide +kernel)
  revert hides
  decide +kernel

end Result
end CoderClient
end CoderManager
