import CoderManager.Domains.TemplateSource
import CoderManager.Lib.Dict

/-!
# What a template archive contains

The walk is compared with the tree itself: an entry is archived by where it stands and
what it is, and by nothing that the walk decides on its way.
-/
namespace CoderManager
namespace TemplateSource
open Dicts

section Trees

/-- The names in one directory are distinct, and none of them holds a slash. -/
inductive WellFormed : List (String × Node) → Prop where
  | intro {entries : List (String × Node)} (distinct : Distinct entries)
      (named : ∀ entry ∈ entries, '/' ∉ entry.1.toList)
      (children : ∀ name children, (name, .directory children) ∈ entries → WellFormed children) :
      WellFormed entries

/-- A finite directory tree. -/
structure DirectoryTree where
  entries : List (String × Node)
  wellFormed : WellFormed entries

/-- What stands at a path that follows no symbolic link. -/
inductive Reached : List (String × Node) → List String → Node → Prop where
  | here {entries : List (String × Node)} {name : String} {node : Node}
      (entry : (name, node) ∈ entries) : Reached entries [name] node
  | deeper {entries children : List (String × Node)} {name : String} {path : List String} {node : Node}
      (entry : (name, .directory children) ∈ entries) (there : Reached children path node) :
      Reached entries (name :: path) node

def Shown (parts : List String) : Prop := ∀ part ∈ parts, isHidden part = false

def Excluded (path : List String) (name : String) : Prop :=
  (isHidden name = true ∧ name ≠ ".terraform.lock.hcl") ∨
    ".tfstate".toList <:+: (asPosix path).toList ∨
    name = "terraform.tfvars" ∨ name = "terraform.tfvars.json" ∨
    ".auto.tfvars".toList <:+ name.toList ∨ ".auto.tfvars.json".toList <:+ name.toList

/-- Which entries of the tree belong into the archive. -/
def Archived (path : List String) (node : Node) : Prop :=
  if node.isDir then Shown path
  else ∃ directory name, path = directory ++ [name] ∧ Shown directory ∧ ¬Excluded path name

/-- The archive has an entry for what belongs into it, once, and for nothing else. No
entry comes after one that is below it. -/
structure ExactArchive (tree : DirectoryTree) (entries : List ArchiveEntry) : Prop where
  once : (entries.map ArchiveEntry.arcname).Nodup
  exact_entries : ∀ entry, entry ∈ entries ↔ ∃ node, Reached tree.entries entry.parts node ∧
    Archived entry.parts node ∧ entry.stored = node.stored
  ordered : entries.Pairwise fun earlier later => ¬later.parts <+: earlier.parts

end Trees

section Names
variable {entries : List (String × Node)} {kind : Node → Bool} {name : String}
  {current : List String}

theorem mem_sortedEntryNames :
    name ∈ sortedEntryNames entries kind ↔ ∃ node, (name, node) ∈ entries ∧ kind node = true := by
  rw [sortedEntryNames, (List.perm_insertionSort _ _).mem_iff, List.mem_map]
  constructor
  · rintro ⟨⟨name, node⟩, hmem, rfl⟩
    exact ⟨node, List.mem_filter.mp hmem⟩
  · rintro ⟨node, hmem⟩
    exact ⟨(name, node), List.mem_filter.mpr hmem, rfl⟩

theorem nodup_sortedEntryNames (distinct : Distinct entries) :
    (sortedEntryNames entries kind).Nodup :=
  (List.perm_insertionSort _ _).nodup_iff.mpr (distinct_filter distinct _)

theorem mem_addEntry (distinct : Distinct entries) {entry : ArchiveEntry} :
    entry ∈ addEntry current entries name ↔
      ∃ node, (name, node) ∈ entries ∧ entry = ⟨current ++ [name], node.stored⟩ := by
  rw [addEntry, Option.mem_toList, Option.map_eq_some_iff]
  constructor
  · rintro ⟨node, hlookup, rfl⟩
    exact ⟨node, mem_of_lookup hlookup, rfl⟩
  · rintro ⟨node, hmem, rfl⟩
    exact ⟨node, lookup_of_mem distinct hmem, rfl⟩

theorem lookup_writtenBelow (current : List String) (entries : List (String × Node)) (name : String) :
    (writtenBelow current entries).lookup name =
      (entries.lookup name).map (writeArchiveEntries (current ++ [name])) := by
  induction entries with
  | nil => rfl
  | cons entry entries ih =>
      obtain ⟨other, node⟩ := entry
      rw [writtenBelow, List.lookup_cons, List.lookup_cons]
      cases hname : name == other with
      | true =>
          rw [eq_of_beq hname]
          rfl
      | false => exact ih

end Names

section Filters
variable {current : List String} {name : String}

theorem shown_append {directory : List String} :
    Shown (current ++ directory) ↔ Shown current ∧ Shown directory := by
  constructor
  · intro h
    exact ⟨fun part hpart => h part (List.mem_append_left _ hpart),
      fun part hpart => h part (List.mem_append_right _ hpart)⟩
  · rintro ⟨hcurrent, hdirectory⟩ part hpart
    rcases List.mem_append.mp hpart with hpart | hpart
    · exact hcurrent part hpart
    · exact hdirectory part hpart

theorem any_isHidden_iff {parts : List String} : (!parts.any isHidden) = true ↔ Shown parts := by
  rw [Bool.not_eq_true', List.any_eq_false]
  simp [Shown]

theorem skipArchiveFile_iff (shown : Shown current) :
    skipArchiveFile (current ++ [name]) = true ↔ Excluded (current ++ [name]) name := by
  have hany : (current ++ [name]).any isHidden = isHidden name := by
    have hcurrent : current.any isHidden = false := by
      rw [List.any_eq_false]
      intro part hpart
      simp [shown part hpart]
    rw [List.any_append, hcurrent]
    simp
  have hlast : (current ++ [name]).getLast?.getD "" = name := by
    rw [List.getLast?_append]
    rfl
  unfold skipArchiveFile Excluded
  dsimp only
  rw [hany, hlast]
  by_cases hhidden : isHidden name = true ∧ name ≠ ".terraform.lock.hcl"
  · rw [if_pos (by simpa using hhidden)]
    exact iff_of_true rfl (.inl hhidden)
  · rw [if_neg (by simpa using hhidden), or_iff_right hhidden]
    by_cases hstate : ".tfstate".toList <:+: (asPosix (current ++ [name])).toList
    · rw [if_pos hstate]
      exact iff_of_true rfl (.inl hstate)
    · rw [if_neg hstate, or_iff_right hstate]
      simp only [List.contains_cons, List.contains_nil, List.any_cons, List.any_nil, Bool.or_false,
        Bool.or_eq_true, beq_iff_eq, decide_eq_true_eq, or_assoc]

end Filters

section Walk
variable {entries : List (String × Node)} {current : List String} {entry : ArchiveEntry}

theorem node_unique (distinct : Distinct entries) {name : String} {a b : Node}
    (ha : (name, a) ∈ entries) (hb : (name, b) ∈ entries) : a = b :=
  Option.some.inj ((lookup_of_mem distinct ha).symm.trans (lookup_of_mem distinct hb))

theorem mem_added (distinct : Distinct entries) (kind : Node → Bool) (keep : String → Bool) :
    entry ∈ ((sortedEntryNames entries kind).filter keep).flatMap (addEntry current entries) ↔
      ∃ name node, (name, node) ∈ entries ∧ kind node = true ∧ keep name = true ∧
        entry = ⟨current ++ [name], node.stored⟩ := by
  rw [List.mem_flatMap]
  constructor
  · rintro ⟨name, hname, hentry⟩
    obtain ⟨hsorted, hkeep⟩ := List.mem_filter.mp hname
    obtain ⟨node, hnode, hkind⟩ := mem_sortedEntryNames.mp hsorted
    obtain ⟨other, hother, heq⟩ := (mem_addEntry distinct).mp hentry
    exact ⟨name, node, hnode, hkind, hkeep, node_unique distinct hother hnode ▸ heq⟩
  · rintro ⟨name, node, hnode, hkind, hkeep, heq⟩
    exact ⟨name, List.mem_filter.mpr ⟨mem_sortedEntryNames.mpr ⟨node, hnode, hkind⟩, hkeep⟩,
      (mem_addEntry distinct).mpr ⟨node, hnode, heq⟩⟩

def visibleDirectories (current : List String) (entries : List (String × Node)) : List String :=
  ((sortedEntryNames entries Node.isDir).filter fun name => !(current ++ [name]).any isHidden).filter
    fun name => !(entries.lookup name).any Node.isSymlink

theorem mem_visibleDirectories (distinct : Distinct entries) {name : String} :
    name ∈ visibleDirectories current entries ↔
      Shown (current ++ [name]) ∧ ∃ children, (name, .directory children) ∈ entries := by
  rw [visibleDirectories, List.mem_filter, List.mem_filter, mem_sortedEntryNames, any_isHidden_iff]
  constructor
  · rintro ⟨⟨⟨node, hnode, hdir⟩, hshown⟩, hlink⟩
    rw [lookup_of_mem distinct hnode] at hlink
    cases node with
    | file content => cases hdir
    | symlink linkname target => cases hlink
    | directory children => exact ⟨hshown, children, hnode⟩
  · rintro ⟨hshown, children, hnode⟩
    refine ⟨⟨⟨_, hnode, rfl⟩, hshown⟩, ?_⟩
    rw [lookup_of_mem distinct hnode]
    rfl

theorem lookup_visible (distinct : Distinct entries) {name : String} {children : List (String × Node)}
    (h : (name, .directory children) ∈ entries) :
    ((writtenBelow current entries).lookup name).getD [] =
      writeArchiveEntries (current ++ [name]) (.directory children) := by
  rw [lookup_writtenBelow, lookup_of_mem distinct h]
  rfl

theorem mem_further (distinct : Distinct entries) :
    entry ∈ (visibleDirectories current entries).flatMap
        (fun name => ((writtenBelow current entries).lookup name).getD []) ↔
      ∃ name children, (name, .directory children) ∈ entries ∧ Shown (current ++ [name]) ∧
        entry ∈ writeArchiveEntries (current ++ [name]) (.directory children) := by
  rw [List.mem_flatMap]
  constructor
  · rintro ⟨name, hname, hentry⟩
    obtain ⟨hshown, children, hchildren⟩ := (mem_visibleDirectories distinct).mp hname
    rw [lookup_visible distinct hchildren] at hentry
    exact ⟨name, children, hchildren, hshown, hentry⟩
  · rintro ⟨name, children, hchildren, hshown, hentry⟩
    refine ⟨name, (mem_visibleDirectories distinct).mpr ⟨hshown, children, hchildren⟩, ?_⟩
    rw [lookup_visible distinct hchildren]
    exact hentry

theorem archived_here {name : String} {node : Node} (shown : Shown current) :
    Archived (current ++ [name]) node ↔
      if node.isDir then Shown (current ++ [name])
      else skipArchiveFile (current ++ [name]) = false := by
  unfold Archived
  split
  · exact Iff.rfl
  · rw [← Bool.not_eq_true, skipArchiveFile_iff shown]
    constructor
    · rintro ⟨directory, other, heq, -, hexcluded⟩
      obtain ⟨rfl, hname⟩ := List.append_inj' heq rfl
      cases hname
      exact hexcluded
    · intro hexcluded
      exact ⟨current, name, rfl, shown, hexcluded⟩

theorem shown_of_archived {name : String} {path : List String} {node : Node} (hne : path ≠ [])
    (h : Archived (current ++ name :: path) node) : Shown (current ++ [name]) := by
  unfold Archived at h
  split at h
  · intro part hpart
    apply h part
    rw [List.append_cons]
    exact List.mem_append_left _ hpart
  · obtain ⟨directory, last, heq, hshown, -⟩ := h
    have hpath := List.dropLast_append_getLast hne
    rw [List.append_cons, ← hpath, ← List.append_assoc] at heq
    obtain ⟨hdirectory, -⟩ := List.append_inj' heq rfl
    rw [← hdirectory] at hshown
    exact (shown_append.mp hshown).1

theorem Reached.ne_nil {path : List String} {node : Node} (h : Reached entries path node) :
    path ≠ [] := by
  cases h <;> exact List.cons_ne_nil _ _

/-- The walk writes what stands below and belongs into the archive. -/
theorem mem_writeArchiveEntries (wellFormed : WellFormed entries) (shown : Shown current) :
    entry ∈ writeArchiveEntries current (.directory entries) ↔
      ∃ path node, Reached entries path node ∧ Archived (current ++ path) node ∧
        entry = ⟨current ++ path, node.stored⟩ := by
  induction wellFormed generalizing current with
  | @intro entries distinct _ children ih =>
      rw [writeArchiveEntries, List.mem_append, List.mem_append, mem_added distinct,
        mem_added distinct]
      rw [← visibleDirectories]
      rw [mem_further distinct]
      constructor
      · rintro ((⟨name, node, hnode, hdir, hshown, rfl⟩ | ⟨name, node, hnode, hfile, hkeep, rfl⟩) |
          ⟨name, children, hchildren, hshown, hentry⟩)
        · refine ⟨[name], node, .here hnode, ?_, rfl⟩
          rw [archived_here shown, if_pos hdir]
          exact any_isHidden_iff.mp hshown
        · refine ⟨[name], node, .here hnode, ?_, rfl⟩
          rw [archived_here shown, if_neg (by simpa using hfile)]
          simpa using hkeep
        · obtain ⟨path, node, hreached, harchived, rfl⟩ := (ih name children hchildren hshown).mp hentry
          rw [← List.append_cons] at harchived ⊢
          exact ⟨name :: path, node, .deeper hchildren hreached, harchived, rfl⟩
      · rintro ⟨path, node, hreached, harchived, rfl⟩
        cases hreached with
        | @here _ name _ hnode =>
            rw [archived_here shown] at harchived
            apply Or.inl
            split at harchived
            · rename_i hdir
              exact .inl ⟨name, node, hnode, hdir, any_isHidden_iff.mpr harchived, rfl⟩
            · rename_i hdir
              exact .inr ⟨name, node, hnode, by simpa using hdir, by simpa using harchived, rfl⟩
        | @deeper _ children name path _ hchildren hthere =>
            have hshown := shown_of_archived hthere.ne_nil harchived
            rw [List.append_cons] at harchived
            exact .inr ⟨name, children, hchildren, hshown,
              (ih name children hchildren hshown).mpr
                ⟨path, node, hthere, harchived, by rw [List.append_cons]⟩⟩

end Walk

section Order
variable {entries : List (String × Node)} {current : List String}

theorem not_prefix_of_ne {name other : String} (hne : name ≠ other) (left right : List String) :
    ¬current ++ other :: left <+: current ++ name :: right := by
  intro h
  rw [List.prefix_append_right_inj] at h
  exact hne (List.cons_prefix_cons.mp h).1.symm

/-- No entry comes after one that is below it, or after itself. -/
theorem pairwise_writeArchiveEntries (wellFormed : WellFormed entries) (shown : Shown current) :
    (writeArchiveEntries current (.directory entries)).Pairwise
      fun earlier later => ¬later.parts <+: earlier.parts := by
  induction wellFormed generalizing current with
  | @intro entries distinct named children ih =>
      have hadded : ∀ (kind : Node → Bool) (keep : String → Bool),
          (((sortedEntryNames entries kind).filter keep).flatMap
            (addEntry current entries)).Pairwise
              fun earlier later => ¬later.parts <+: earlier.parts := by
        intro kind keep
        apply List.pairwise_flatMap.mpr
        constructor
        · intro name _
          rw [addEntry]
          cases entries.lookup name <;> simp
        · apply ((nodup_sortedEntryNames distinct).filter keep).imp
          intro name other hne earlier hearlier later hlater
          obtain ⟨_, -, rfl⟩ := (mem_addEntry distinct).mp hearlier
          obtain ⟨_, -, rfl⟩ := (mem_addEntry distinct).mp hlater
          exact not_prefix_of_ne hne [] []
      have hvisible : ∀ name ∈ visibleDirectories current entries,
          ∃ children, (name, Node.directory children) ∈ entries ∧ Shown (current ++ [name]) := by
        intro name hname
        obtain ⟨hshown, children, hchildren⟩ := (mem_visibleDirectories distinct).mp hname
        exact ⟨children, hchildren, hshown⟩
      -- what is written below an entry stands below it
      have hdeeper : ∀ name ∈ visibleDirectories current entries,
          ∀ entry ∈ ((writtenBelow current entries).lookup name).getD [],
            ∃ part rest, entry.parts = current ++ name :: part :: rest := by
        intro name hname entry hentry
        obtain ⟨children', hchildren, hshown⟩ := hvisible name hname
        rw [lookup_visible distinct hchildren,
          mem_writeArchiveEntries (children name children' hchildren) hshown] at hentry
        obtain ⟨path, node, hreached, -, rfl⟩ := hentry
        cases path with
        | nil => exact absurd rfl hreached.ne_nil
        | cons part rest => exact ⟨part, rest, (List.append_cons _ _ _).symm⟩
      have hbelow : ((visibleDirectories current entries).flatMap fun name =>
          ((writtenBelow current entries).lookup name).getD []).Pairwise
            fun earlier later => ¬later.parts <+: earlier.parts := by
        apply List.pairwise_flatMap.mpr
        constructor
        · intro name hname
          obtain ⟨children', hchildren, hshown⟩ := hvisible name hname
          rw [lookup_visible distinct hchildren]
          exact ih name children' hchildren hshown
        · have hnodup : (visibleDirectories current entries).Nodup :=
            ((nodup_sortedEntryNames distinct).filter _).filter _
          apply hnodup.imp_of_mem
          intro name other hname hother hne earlier hearlier later hlater
          obtain ⟨part, rest, hparts⟩ := hdeeper name hname earlier hearlier
          obtain ⟨part', rest', hparts'⟩ := hdeeper other hother later hlater
          rw [hparts, hparts']
          exact not_prefix_of_ne hne _ _
      rw [writeArchiveEntries, ← visibleDirectories]
      apply List.pairwise_append.mpr
      refine ⟨List.pairwise_append.mpr ⟨hadded _ _, hadded _ _, ?_⟩, hbelow, ?_⟩
      · intro directory hdirectory file hfile
        obtain ⟨name, node, hnode, hdir, -, rfl⟩ := (mem_added distinct _ _).mp hdirectory
        obtain ⟨other, node', hnode', hfile', -, rfl⟩ := (mem_added distinct _ _).mp hfile
        have hne : name ≠ other := by
          rintro rfl
          rw [node_unique distinct hnode hnode'] at hdir
          simp [hdir] at hfile'
        exact not_prefix_of_ne hne [] []
      · intro added hadded' later hlater
        obtain ⟨name, hname, hentry⟩ := List.mem_flatMap.mp hlater
        obtain ⟨part, rest, hparts⟩ := hdeeper name hname later hentry
        have hlength : added.parts.length = current.length + 1 := by
          rcases List.mem_append.mp hadded' with h | h <;>
            obtain ⟨_, _, -, -, -, rfl⟩ := (mem_added distinct _ _).mp h <;> simp
        intro hfront
        have hle := hfront.length_le
        rw [hparts, hlength, List.length_append] at hle
        simp only [List.length_cons] at hle
        omega

end Order

section Result

theorem Reached.named {entries : List (String × Node)} {path : List String} {node : Node}
    (wellFormed : WellFormed entries) (h : Reached entries path node) :
    ∀ part ∈ path, '/' ∉ part.toList := by
  induction h with
  | here entry =>
      cases wellFormed with
      | intro _ named _ =>
          intro part hpart
          rw [List.mem_singleton.mp hpart]
          exact named _ entry
  | deeper entry _ ih =>
      cases wellFormed with
      | intro _ named children =>
          intro part hpart
          rcases List.mem_cons.mp hpart with rfl | hpart
          · exact named _ entry
          · exact ih (children _ _ entry) part hpart

theorem asPosix_inj {a b : List String} (ha : a ≠ []) (hb : b ≠ [])
    (hna : ∀ part ∈ a, '/' ∉ part.toList) (hnb : ∀ part ∈ b, '/' ∉ part.toList)
    (h : asPosix a = asPosix b) : a = b := by
  have hglue : "/".toList = ['/'] := rfl
  rw [← Texts.splitAt_intercalate hglue hna ha, ← Texts.splitAt_intercalate hglue hnb hb]
  exact congrArg (fun text => Texts.splitAt text '/') h

theorem exactArchive (tree : DirectoryTree) :
    ExactArchive tree (writeArchiveEntries [] (.directory tree.entries)) := by
  have hshown : Shown [] := fun part hpart => absurd hpart List.not_mem_nil
  have hmem : ∀ entry, entry ∈ writeArchiveEntries [] (.directory tree.entries) ↔
      ∃ path node, Reached tree.entries path node ∧ Archived path node ∧
        entry = ⟨path, node.stored⟩ := fun entry =>
    mem_writeArchiveEntries tree.wellFormed hshown
  have hordered := pairwise_writeArchiveEntries tree.wellFormed hshown
  exact {
    once := by
      apply List.Pairwise.map
      · intro a b h
        exact h
      · apply hordered.imp_of_mem
        intro earlier later hearlier hlater hne heq
        obtain ⟨path, _, hreached, -, rfl⟩ := (hmem earlier).mp hearlier
        obtain ⟨path', _, hreached', -, rfl⟩ := (hmem later).mp hlater
        have hsame : path = path' := asPosix_inj hreached.ne_nil hreached'.ne_nil
          (hreached.named tree.wellFormed) (hreached'.named tree.wellFormed) heq
        exact hne (hsame ▸ List.prefix_rfl)
    exact_entries := by
      intro entry
      rw [hmem]
      constructor
      · rintro ⟨path, node, hreached, harchived, rfl⟩
        exact ⟨node, hreached, harchived, rfl⟩
      · rintro ⟨node, hreached, harchived, hstored⟩
        exact ⟨entry.parts, node, hreached, harchived, by rw [← hstored]⟩
    ordered := hordered }

/-- An accepted directory is archived exactly. -/
theorem template_archive_contents {tree : DirectoryTree} {tar : List ArchiveEntry → Option Bytes}
    {content : Bytes} (accepted : archiveTemplateDirectory tar (some tree.entries) = .ok content) :
    ∃ entries, tar entries = some content ∧ ExactArchive tree entries := by
  refine ⟨_, ?_, exactArchive tree⟩
  unfold archiveTemplateDirectory at accepted
  split at accepted
  · cases accepted
  · rename_i heq
    cases heq
    split at accepted
    · cases accepted
    · split at accepted
      · cases accepted
      · rename_i bytes hbytes
        split at accepted
        · cases accepted
        · cases accepted
          exact hbytes

/-- A template with one module, a link to it, and what must not leave the checkout. -/
def smallTree : DirectoryTree where
  entries := [("main.tf", .file [116]), ("terraform.tfstate", .file [115]),
    ("modules", .directory [("network.tf", .file [110]), (".git", .directory [])]),
    ("current", .symlink "modules" .directory)]
  wellFormed := by
    have hgit : WellFormed [] := .intro (by decide) (by decide) (by simp)
    have hmodules : WellFormed [("network.tf", .file [110]), (".git", .directory [])] := by
      apply WellFormed.intro (by decide) (by decide)
      intro name children h
      simp only [List.mem_cons, Prod.mk.injEq, reduceCtorEq, and_false, List.not_mem_nil, or_false,
        false_or, Node.directory.injEq] at h
      rw [h.2]
      exact hgit
    apply WellFormed.intro (by decide) (by decide)
    intro name children h
    simp only [List.mem_cons, Prod.mk.injEq, reduceCtorEq, and_false, List.not_mem_nil, or_false,
      false_or, Node.directory.injEq] at h
    rw [h.2]
    exact hmodules

/-- A header field of this width. A text that is too long has none. -/
def headerField (width : Nat) (text : String) : Option Bytes :=
  let bytes := text.toList.map fun c => UInt8.ofNat c.toNat
  if width < bytes.length then none else some (bytes ++ List.replicate (width - bytes.length) 0)

def octal (digits n : Nat) : String :=
  .ofList ((List.range digits).map fun i => Nat.digitChar (n / 8 ^ (digits - 1 - i) % 8))

def Stored.content : Stored → Bytes
  | .file content => content
  | _ => []

def ustarHeader (entry : ArchiveEntry) (checksum : String) : Option Bytes := do
  let (flag, linkname) := match entry.stored with
    | .file _ => ("0", "")
    | .symlink linkname => ("2", linkname)
    | .directory => ("5", "")
  let fields ← [(100, entry.arcname), (8, "0000644"), (8, octal 7 0), (8, octal 7 0),
    (12, octal 11 entry.stored.content.length), (12, octal 11 0), (8, checksum), (1, flag),
    (100, linkname), (6, "ustar"), (2, "00"), (32, ""), (32, ""), (8, ""), (8, ""), (155, ""),
    (12, "")].mapM fun field => headerField field.1 field.2
  return fields.flatten

def ustarEntry (entry : ArchiveEntry) : Option Bytes := do
  let unsigned ← ustarHeader entry "        "
  let header ← ustarHeader entry (octal 6 (unsigned.foldl (fun sum byte => sum + byte.toNat) 0))
  let content := entry.stored.content
  return header ++ content ++ List.replicate ((512 - content.length % 512) % 512) 0

def ustar (entries : List ArchiveEntry) : Option Bytes :=
  (entries.mapM ustarEntry).map fun blocks => blocks.flatten ++ List.replicate 1024 0

theorem template_archive_contents_example :
    ∃ content entries, content.length = 4096 ∧ ustar entries = some content ∧
      ExactArchive smallTree entries := by
  have hwritten : ((archiveTemplateDirectory ustar (some smallTree.entries)).map List.length) =
      .ok 4096 := by decide +kernel
  cases h : archiveTemplateDirectory ustar (some smallTree.entries) with
  | error message =>
      rw [h] at hwritten
      cases hwritten
  | ok content =>
      rw [h] at hwritten
      obtain ⟨entries, hentries, hexact⟩ := template_archive_contents h
      exact ⟨content, entries, Except.ok.inj hwritten, hentries, hexact⟩

end Result
end TemplateSource
end CoderManager
