import CoderManager.Domains.ArgoCd
import Mathlib.Data.List.Dedup
import Mathlib.Data.String.Basic

/-!
# The Helm arguments of an Application

Usernames are joined by commas inside a scalar that quotes commas, and the scalars
are lines of one text. The plugin reads the text back line by line; it finds the
values that were meant, and no assignment that was not.
-/
namespace CoderManager
namespace ArgoCd

section Reading

/-- The `HELM_ARGS` that an Application hands to the plugin. -/
def helmArguments (application : Json) : Option String := do
  let spec ← application.get "spec"
  let source ← spec.get "source"
  let plugin ← source.get "plugin"
  match plugin.get "env" with
  | some (.arr env) =>
      let entry ← env.find? fun entry => entry.text "name" == some "HELM_ARGS"
      entry.text "value"
  | _ => none

def setAssignments (line : String) : Option (List (String × String)) :=
  if "--set ".toList <+: line.toList then
    some ((Texts.assignments '\\' ',' '=' (.name []) (line.toList.drop 6)).map fun assignment =>
      (.ofList assignment.1, .ofList assignment.2))
  else none

def readAssignments (arguments : String) : List (List (String × String)) :=
  (Texts.splitAt arguments '\n').filterMap setAssignments

end Reading

section Meaning

/-- The assignments that an Application is meant to carry. -/
def intendedAssignments (users admins : List String) (helmValues : HelmValues) :
    List (String × String) :=
  let secret := fun field => "<secret:" ++ helmValues.managedDatabaseName ++ "#" ++ field ++ ">"
  [("policy.config.allowedUsernames", ",".intercalate users),
    ("policy.config.adminUsernames", ",".intercalate admins),
    ("global.baseDomain", helmValues.baseDomain),
    ("global.identifier", helmValues.slug),
    ("server.config.postgres.username", secret "username"),
    ("server.config.postgres.password", secret "password"),
    ("server.config.postgres.host", helmValues.databaseHost),
    ("server.config.postgres.database", helmValues.databaseName),
    ("server.config.postgres.schema", helmValues.databaseSchema)] ++
    helmValues.kubeconfig.toList.map fun kubeconfig => ("server.config.kube", kubeconfig)

/-- The names of a set, sorted and each of them once. -/
def Lists (names : List String) (member : String → Prop) : Prop :=
  names.Pairwise (· < ·) ∧ ∀ name, name ∈ names ↔ member name

/-- What the validators of the settings and of the members let through. -/
structure Admitted (isSpace : Char → Bool) (lower : String → String) (config : ArgoCdConfig)
    (members : List (String × MemberRole)) : Prop where
  defaultAdmins : ∃ rawValue, parseDefaultAdmins isSpace lower rawValue = .ok config.defaultAdmins
  additionalValues : ∃ value name, optionalSingleLineValue isSpace value name =
    .ok config.additionalValues
  members : ∀ member ∈ members, ∃ username, normalizeUsername isSpace lower username = .ok member.1

end Meaning

section Names

theorem lists_sortedNames (names : List String) : Lists (sortedNames names) (· ∈ names) := by
  constructor
  · have hsorted : (sortedNames names).Pairwise (· ≤ ·) := List.pairwise_insertionSort _ _
    have hnodup : (sortedNames names).Nodup :=
      (List.perm_insertionSort _ _).nodup_iff.mpr (List.nodup_dedup names)
    exact (hsorted.and hnodup).imp fun h => lt_of_le_of_ne h.1 h.2
  · intro name
    rw [sortedNames, (List.perm_insertionSort _ _).mem_iff, List.mem_dedup]

variable {isSpace : Char → Bool} {lower : String → String}

theorem mem_of_mem_strip {value : String} {x : Char} (hx : x ∈ (strip isSpace value).toList) :
    x ∈ value.toList := by
  rw [strip, String.toList_ofList, List.mem_reverse] at hx
  exact (List.dropWhile_sublist _).mem
    (List.mem_reverse.mp ((List.dropWhile_sublist _).mem hx))

theorem no_comma_of_parseDefaultAdmins {rawValue : String} {admins : List String}
    (comma : ∀ text : String, ',' ∉ text.toList → ',' ∉ (lower text).toList)
    (h : parseDefaultAdmins isSpace lower rawValue = .ok admins) :
    ∀ admin ∈ admins, ',' ∉ admin.toList := by
  unfold parseDefaultAdmins at h
  intro admin hadmin
  split at h
  · cases h
    cases hadmin
  · extract_lets rawAdmins lowered at h
    split at h
    · cases h
    · split at h
      · cases h
      · split at h
        · cases h
        · cases h
          have hmem := ((lists_sortedNames lowered).2 admin).mp hadmin
          obtain ⟨raw, hraw, rfl⟩ := List.mem_map.mp hmem
          apply comma
          intro hcomma
          exact Texts.not_mem_of_mem_splitAt hraw (mem_of_mem_strip hcomma)

theorem no_comma_of_normalizeUsername {raw username : String}
    (h : normalizeUsername isSpace lower raw = .ok username) : ',' ∉ username.toList := by
  unfold normalizeUsername at h
  extract_lets normalized at h
  split at h
  · cases h
  · split at h
    · cases h
    · rename_i hcomma
      split at h
      · cases h
      · have heq : normalized = username := Except.ok.inj h
        exact heq ▸ hcomma

theorem no_newline_of_hasLineBreak {value : String} (h : hasLineBreak value = false) :
    '\n' ∉ value.toList := by
  intro hmem
  have hall := List.any_eq_false.mp h '\n' hmem
  exact hall (by decide)

theorem no_newline_of_optionalSingleLineValue {value : Option String} {name stripped : String}
    (h : optionalSingleLineValue isSpace value name = .ok (some stripped)) :
    '\n' ∉ stripped.toList := by
  unfold optionalSingleLineValue at h
  split at h
  · cases h
  · split at h
    · cases h
    · rename_i hbreak
      split at h
      · cases h
      · cases h
        intro hmem
        exact no_newline_of_hasLineBreak (by simpa using hbreak) (mem_of_mem_strip hmem)

end Names

section Lines

def lineBreakError (name : String) : ArgoCdError :=
  .requestError ("Helm argument " ++ name ++ " cannot contain line breaks")

def setLine (assignment : String × String) : String :=
  "--set " ++ assignment.1 ++ "=" ++
    Texts.replace (Texts.replace assignment.2 "\\" "\\\\") "," "\\,"

theorem toList_setLine (assignment : String × String) :
    (setLine assignment).toList = "--set ".toList ++ (assignment.1.toList ++
      '=' :: Texts.quote '\\' ',' assignment.2.toList) := by
  have hquote := Texts.replaceAll_quote '\\' ',' (by decide) assignment.2.toList
  simp only [setLine, Texts.replace, String.toList_append, String.toList_ofList]
  rw [← hquote]
  simp

theorem setAssignments_setLine {assignment : String × String}
    (hname : '=' ∉ assignment.1.toList) :
    setAssignments (setLine assignment) = some [assignment] := by
  have hdrop : (setLine assignment).toList.drop 6 = assignment.1.toList ++
      '=' :: Texts.quote '\\' ',' assignment.2.toList := by
    rw [toList_setLine]
    rfl
  rw [setAssignments, if_pos ⟨_, (toList_setLine assignment).symm⟩, hdrop,
    Texts.assignments_name_quote '\\' ',' '=' _ _ hname]
  simp

theorem no_newline_setLine {assignment : String × String} (hname : '\n' ∉ assignment.1.toList)
    (hvalue : '\n' ∉ assignment.2.toList) : '\n' ∉ (setLine assignment).toList := by
  rw [toList_setLine]
  intro h
  rcases List.mem_append.mp h with hset | hrest
  · exact absurd hset (by decide)
  · rcases List.mem_append.mp hrest with hmem | hmem
    · exact hname hmem
    · rcases List.mem_cons.mp hmem with heq | hquote
      · exact absurd heq (by decide)
      · exact Texts.not_mem_quote '\\' ',' (by decide) hvalue hquote

/-- Either every scalar is written, or the first with a line break is refused. -/
theorem mapM_helmScalarArgument (assignments : List (String × String)) :
    (∃ a ∈ assignments, hasLineBreak a.2 = true ∧
      (assignments.mapM fun a => helmScalarArgument a.1 a.2) = .error (lineBreakError a.1)) ∨
    ((∀ a ∈ assignments, hasLineBreak a.2 = false) ∧
      (assignments.mapM fun a => helmScalarArgument a.1 a.2) = .ok (assignments.map setLine)) := by
  induction assignments with
  | nil =>
      apply Or.inr
      constructor
      · intro a ha
        cases ha
      · rfl
  | cons a assignments ih =>
      rw [List.mapM_cons]
      cases hbreak : hasLineBreak a.2 with
      | true =>
          apply Or.inl
          refine ⟨a, List.mem_cons_self, hbreak, ?_⟩
          rw [helmScalarArgument, if_pos hbreak]
          rfl
      | false =>
          have hline : helmScalarArgument a.1 a.2 = .ok (setLine a) := by
            rw [helmScalarArgument, if_neg (by simp [hbreak])]
            rfl
          rcases ih with ⟨b, hb, hbroken, herror⟩ | ⟨hall, hok⟩
          · apply Or.inl
            refine ⟨b, List.mem_cons_of_mem _ hb, hbroken, ?_⟩
            rw [hline, herror]
            rfl
          · apply Or.inr
            constructor
            · intro b hb
              rcases List.mem_cons.mp hb with rfl | hb
              · exact hbreak
              · exact hall b hb
            · rw [hline, hok]
              rfl

def helmText (additionalValues : Option String) (assignments : List (String × String)) : String :=
  "\n".intercalate ((additionalValues.toList.map fun values => "--values " ++ values) ++
    ["--namespace " ++ applicationNamespace] ++ assignments.map setLine) ++ "\n"

end Lines

section Payload
variable {config : ArgoCdConfig} {members : List (String × MemberRole)}

theorem applicationPayload_cases (project name : String) (instanceId : UUID)
    (helmValues : HelmValues) {users admins : List String}
    (hmembers : memberValues config.defaultAdmins members = (users, admins)) :
    (∃ a ∈ intendedAssignments users admins helmValues, hasLineBreak a.2 = true ∧
      applicationPayload project config name instanceId members helmValues =
        .error (lineBreakError a.1)) ∨
    ((∀ a ∈ intendedAssignments users admins helmValues, hasLineBreak a.2 = false) ∧
      ∃ application, applicationPayload project config name instanceId members helmValues =
          .ok application ∧
        helmArguments application = some
          (helmText config.additionalValues (intendedAssignments users admins helmValues))) := by
  unfold applicationPayload intendedAssignments
  rw [hmembers]
  dsimp only
  generalize hplain : [("policy.config.allowedUsernames", ",".intercalate users), _, _, _, _, _,
    _, _, _] = plain
  rcases mapM_helmScalarArgument plain with ⟨a, ha, hbreak, herror⟩ | ⟨hall, hok⟩
  · apply Or.inl
    refine ⟨a, List.mem_append_left _ ha, hbreak, ?_⟩
    rw [herror]
    rfl
  · rw [hok]
    cases hkube : helmValues.kubeconfig with
    | none =>
        apply Or.inr
        rw [Option.toList_none, List.map_nil, List.append_nil]
        refine ⟨hall, _, rfl, ?_⟩
        rw [helmText]
        cases config.additionalValues <;> simp [helmArguments, Json.get, Json.text, List.lookup_cons]
    | some kubeconfig =>
        rw [Option.toList_some, List.map_cons, List.map_nil]
        cases hbreak : hasLineBreak kubeconfig with
        | true =>
            apply Or.inl
            refine ⟨("server.config.kube", kubeconfig), by simp, hbreak, ?_⟩
            simp only [helmScalarArgument, if_pos hbreak]
            rfl
        | false =>
            apply Or.inr
            constructor
            · intro a ha
              rcases List.mem_append.mp ha with ha | ha
              · exact hall a ha
              · rw [List.mem_singleton.mp ha]
                exact hbreak
            · have hline : helmScalarArgument "server.config.kube" kubeconfig =
                  .ok (setLine ("server.config.kube", kubeconfig)) := by
                rw [helmScalarArgument, if_neg (by simp [hbreak])]
                rfl
              simp only [hline]
              refine ⟨_, rfl, ?_⟩
              rw [helmText]
              cases config.additionalValues <;>
                simp [helmArguments, Json.get, Json.text, List.lookup_cons]

end Payload

section RoundTrip
variable {helmValues : HelmValues} {users admins : List String}

theorem intended_names {a : String × String}
    (ha : a ∈ intendedAssignments users admins helmValues) :
    '=' ∉ a.1.toList ∧ '\n' ∉ a.1.toList := by
  have hnames : a.1 ∈ ["policy.config.allowedUsernames", "policy.config.adminUsernames",
      "global.baseDomain", "global.identifier", "server.config.postgres.username",
      "server.config.postgres.password", "server.config.postgres.host",
      "server.config.postgres.database", "server.config.postgres.schema", "server.config.kube"] := by
    unfold intendedAssignments at ha
    rcases List.mem_append.mp ha with ha | ha
    · have hmem := List.mem_map_of_mem (f := Prod.fst) ha
      simp only [List.map_cons, List.map_nil, List.mem_cons, List.not_mem_nil, or_false] at hmem ⊢
      tauto
    · obtain ⟨kubeconfig, -, rfl⟩ := List.mem_map.mp ha
      simp
  exact (by decide : ∀ name ∈ ["policy.config.allowedUsernames", "policy.config.adminUsernames",
      "global.baseDomain", "global.identifier", "server.config.postgres.username",
      "server.config.postgres.password", "server.config.postgres.host",
      "server.config.postgres.database", "server.config.postgres.schema", "server.config.kube"],
    '=' ∉ name.toList ∧ '\n' ∉ name.toList) a.1 hnames

/-- The lines of the text are the lines that were joined, and an empty one. -/
theorem splitAt_helmText {additionalValues : Option String} {assignments : List (String × String)}
    (hvalues : ∀ values, additionalValues = some values → '\n' ∉ values.toList)
    (hlines : ∀ a ∈ assignments, '\n' ∉ (setLine a).toList) :
    Texts.splitAt (helmText additionalValues assignments) '\n' =
      (additionalValues.toList.map fun values => "--values " ++ values) ++
        ["--namespace " ++ applicationNamespace] ++ assignments.map setLine ++ [""] := by
  have hjoin : helmText additionalValues assignments = "\n".intercalate
      ((additionalValues.toList.map fun values => "--values " ++ values) ++
        ["--namespace " ++ applicationNamespace] ++ assignments.map setLine ++ [""]) := by
    rw [String.intercalate_append_of_ne_nil (by simp) (by simp), String.intercalate_singleton,
      String.append_empty]
    rfl
  rw [hjoin]
  apply Texts.splitAt_intercalate rfl
  · intro line hline
    rcases List.mem_append.mp hline with hline | hline
    · rcases List.mem_append.mp hline with hline | hline
      · rcases List.mem_append.mp hline with hline | hline
        · obtain ⟨values, hmem, rfl⟩ := List.mem_map.mp hline
          rw [String.toList_append]
          intro h
          rcases List.mem_append.mp h with h | h
          · exact absurd h (by decide)
          · exact hvalues values (Option.mem_toList.mp hmem) h
        · rw [List.mem_singleton.mp hline]
          decide
      · obtain ⟨a, ha, rfl⟩ := List.mem_map.mp hline
        exact hlines a ha
    · rw [List.mem_singleton.mp hline]
      decide
  · simp

theorem readAssignments_helmText {additionalValues : Option String}
    {assignments : List (String × String)}
    (hvalues : ∀ values, additionalValues = some values → '\n' ∉ values.toList)
    (hnames : ∀ a ∈ assignments, '=' ∉ a.1.toList ∧ '\n' ∉ a.1.toList)
    (hplain : ∀ a ∈ assignments, '\n' ∉ a.2.toList) :
    readAssignments (helmText additionalValues assignments) = assignments.map fun a => [a] := by
  have hlines : ∀ a ∈ assignments, '\n' ∉ (setLine a).toList := by
    intro a ha
    exact no_newline_setLine (hnames a ha).2 (hplain a ha)
  have hother : ((additionalValues.toList.map fun values => "--values " ++ values) ++
      ["--namespace " ++ applicationNamespace]).filterMap setAssignments = [] := by
    rw [List.filterMap_eq_nil_iff]
    intro line hline
    apply if_neg
    rcases List.mem_append.mp hline with hline | hline
    · obtain ⟨values, -, rfl⟩ := List.mem_map.mp hline
      rw [String.toList_append]
      rintro ⟨rest, hrest⟩
      exact absurd (congrArg (fun text => text[2]?) hrest) (by simp)
    · rw [List.mem_singleton.mp hline]
      decide
  have hset : (assignments.map setLine).filterMap setAssignments = assignments.map fun a => [a] := by
    rw [List.filterMap_map, ← List.filterMap_eq_map]
    apply List.filterMap_congr
    intro a ha
    exact setAssignments_setLine (hnames a ha).1
  have hlast : [""].filterMap setAssignments = [] := by decide
  rw [readAssignments, splitAt_helmText hvalues hlines, List.filterMap_append,
    List.filterMap_append, hother, hset, hlast, List.nil_append, List.append_nil]

end RoundTrip

section Result
variable {isSpace : Char → Bool} {lower : String → String} {config : ArgoCdConfig}
  {members : List (String × MemberRole)}

/-- The plugin reads what was meant, unless a value with a line break was refused. -/
def RoundTrips (project : String) (config : ArgoCdConfig) (name : String) (instanceId : UUID)
    (members : List (String × MemberRole)) (helmValues : HelmValues) : Prop :=
  ∃ users admins,
    Lists users (fun username => username = adminUsername ∨ username ∈ config.defaultAdmins ∨
      ∃ role, (username, role) ∈ members) ∧
    Lists admins (fun username => username = adminUsername ∨ username ∈ config.defaultAdmins ∨
      (username, .admin) ∈ members) ∧
    admins ⊆ users ∧
    Texts.splitAt (",".intercalate users) ',' = users ∧
    Texts.splitAt (",".intercalate admins) ',' = admins ∧
    ((∃ a ∈ intendedAssignments users admins helmValues, hasLineBreak a.2 = true ∧
        applicationPayload project config name instanceId members helmValues =
          .error (lineBreakError a.1)) ∨
      ∃ application arguments,
        applicationPayload project config name instanceId members helmValues = .ok application ∧
        helmArguments application = some arguments ∧
        readAssignments arguments =
          (intendedAssignments users admins helmValues).map fun a => [a])

theorem lists_memberValues (defaultAdmins : List String) (members : List (String × MemberRole)) :
    Lists (memberValues defaultAdmins members).1 (fun username => username = adminUsername ∨
      username ∈ defaultAdmins ∨ ∃ role, (username, role) ∈ members) ∧
    Lists (memberValues defaultAdmins members).2 (fun username => username = adminUsername ∨
      username ∈ defaultAdmins ∨ (username, .admin) ∈ members) := by
  constructor
  · refine ⟨(lists_sortedNames _).1, fun username => ?_⟩
    apply ((lists_sortedNames _).2 username).trans
    simp
  · refine ⟨(lists_sortedNames _).1, fun username => ?_⟩
    apply ((lists_sortedNames _).2 username).trans
    simp

theorem Admitted.no_comma (admitted : Admitted isSpace lower config members)
    (comma : ∀ text : String, ',' ∉ text.toList → ',' ∉ (lower text).toList) {username : String}
    (h : username = adminUsername ∨ username ∈ config.defaultAdmins ∨
      ∃ role, (username, role) ∈ members) : ',' ∉ username.toList := by
  rcases h with rfl | hdefault | ⟨role, hmember⟩
  · decide
  · obtain ⟨rawValue, hraw⟩ := admitted.defaultAdmins
    exact no_comma_of_parseDefaultAdmins comma hraw username hdefault
  · obtain ⟨raw, hraw⟩ := admitted.members _ hmember
    exact no_comma_of_normalizeUsername hraw

theorem helm_arguments_round_trip
    (comma : ∀ text : String, ',' ∉ text.toList → ',' ∉ (lower text).toList)
    (admitted : Admitted isSpace lower config members) (project name : String) (instanceId : UUID)
    (helmValues : HelmValues) :
    RoundTrips project config name instanceId members helmValues := by
  obtain ⟨hlists, hadmins⟩ := lists_memberValues config.defaultAdmins members
  generalize hvalues : memberValues config.defaultAdmins members = values at hlists hadmins
  obtain ⟨users, admins⟩ := values
  have hsub : admins ⊆ users := by
    intro username husername
    apply (hlists.2 username).mpr
    exact ((hadmins.2 username).mp husername).imp_right (Or.imp_right fun h => ⟨_, h⟩)
  have husers : ∀ username ∈ users, ',' ∉ username.toList := by
    intro username husername
    exact admitted.no_comma comma ((hlists.2 username).mp husername)
  have hadmin : adminUsername ∈ admins := (hadmins.2 adminUsername).mpr (.inl rfl)
  refine ⟨users, admins, hlists, hadmins, hsub,
    Texts.splitAt_intercalate rfl husers (List.ne_nil_of_mem (hsub hadmin)),
    Texts.splitAt_intercalate rfl (fun username h => husers username (hsub h))
      (List.ne_nil_of_mem hadmin), ?_⟩
  rcases applicationPayload_cases project name instanceId helmValues hvalues with hrefused | ⟨hplain, application, hok, hread⟩
  · exact .inl hrefused
  · apply Or.inr
    refine ⟨application, _, hok, hread, ?_⟩
    apply readAssignments_helmText
    · intro values hsome
      obtain ⟨value, setting, hsetting⟩ := admitted.additionalValues
      rw [hsome] at hsetting
      exact no_newline_of_optionalSingleLineValue hsetting
    · exact fun a ha => intended_names ha
    · exact fun a ha => no_newline_of_hasLineBreak (hplain a ha)

theorem helm_arguments_round_trip_example :
    RoundTrips "coder"
      ⟨"EMEA", "https://git.example.com/charts", "coder", "main", "cluster", some "values-dev.yaml",
        ⟨"app", "cert", "key", "safe"⟩, ["bob"]⟩ "coder-a1" 1 [("alice", .user)]
      ⟨"a1", "example.com", "db", "db.example.com", "coder", "public", none⟩ := by
  apply @helm_arguments_round_trip (fun x => x == ' ')
    (fun text => .ofList (text.toList.map Char.toLower))
  · intro text hcomma h
    rw [String.toList_ofList] at h
    obtain ⟨x, hx, hlower⟩ := List.mem_map.mp h
    unfold Char.toLower at hlower
    split at hlower
    · rename_i hupper
      have hval : x.val + 32 = 44 := congrArg Char.val hlower
      have hge : (65 : UInt32) ≤ x.val := hupper.1
      have hle : x.val ≤ 90 := hupper.2
      have hnat : (x.val + 32).toNat = 44 := congrArg UInt32.toNat hval
      rw [UInt32.toNat_add] at hnat
      have hge' := UInt32.le_iff_toNat_le.mp hge
      have hle' := UInt32.le_iff_toNat_le.mp hle
      simp at hnat hge' hle'
      omega
    · exact hcomma (hlower ▸ hx)
  · exact {
      defaultAdmins := ⟨" Bob ", by decide⟩
      additionalValues := ⟨some "values-dev.yaml ", "", by decide⟩
      members := by
        intro member hmember
        rw [List.mem_singleton.mp hmember]
        exact ⟨"Alice", by decide⟩ }

end Result
end ArgoCd
end CoderManager
