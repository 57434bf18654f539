import CoderManager.Lib.Text
import Mathlib.Data.List.Sort
import Mathlib.Data.String.Basic

/-!
# Template archives

A checked-out template directory is walked from the top, and what the filters let
through is written to one archive. What the archive writer makes of the entries is a
parameter: it may refuse a name that is too long.
-/
namespace CoderManager
namespace TemplateSource

abbrev Bytes := List UInt8

/-- What a symbolic link leads to. -/
inductive LinkTarget where
  | directory
  | file
  | nothing
  deriving DecidableEq, Repr

/-- An entry of a directory. The walk may see the entries in any order. -/
inductive Node where
  | file (content : Bytes)
  | symlink (linkname : String) (target : LinkTarget)
  | directory (entries : List (String × Node))

namespace Node

/-- `is_dir()`, which follows a link. -/
def isDir : Node → Bool
  | .directory _ => true
  | .symlink _ target => target == .directory
  | .file _ => false

def isFile : Node → Bool
  | .directory _ => false
  | .symlink _ target => target == .file
  | .file _ => true

def isSymlink : Node → Bool
  | .symlink _ _ => true
  | _ => false

end Node

/-- What one entry of the archive holds. -/
inductive Stored where
  | file (content : Bytes)
  | symlink (linkname : String)
  | directory
  deriving DecidableEq, Repr

/-- `archive.add(…, recursive=False)` of an entry of the tree. -/
def Node.stored : Node → Stored
  | .file content => .file content
  | .symlink linkname _ => .symlink linkname
  | .directory _ => .directory

/-- `arcname` is the relative path, its parts joined by slashes. -/
structure ArchiveEntry where
  parts : List String
  stored : Stored
  deriving DecidableEq, Repr

def asPosix (parts : List String) : String := "/".intercalate parts

def ArchiveEntry.arcname (entry : ArchiveEntry) : String := asPosix entry.parts

def isHidden (part : String) : Bool := decide (".".toList <+: part.toList)

def skipArchiveFile (relativePath : List String) : Bool :=
  let name := relativePath.getLast?.getD ""
  if relativePath.any isHidden && name != ".terraform.lock.hcl" then true
  else if ".tfstate".toList <:+: (asPosix relativePath).toList then true
  else ["terraform.tfvars", "terraform.tfvars.json"].contains name ||
    [".auto.tfvars", ".auto.tfvars.json"].any fun ending => decide (ending.toList <:+ name.toList)

section Walk

def sortedEntryNames (entries : List (String × Node)) (kind : Node → Bool) : List String :=
  ((entries.filter fun entry => kind entry.2).map Prod.fst).insertionSort (· ≤ ·)

def addEntry (current : List String) (entries : List (String × Node)) (name : String) :
    List ArchiveEntry :=
  ((entries.lookup name).map fun node => ⟨current ++ [name], node.stored⟩).toList

mutual

def writeArchiveEntries (current : List String) : Node → List ArchiveEntry
  | .directory entries =>
      let written := writtenBelow current entries
      let directoryNames := (sortedEntryNames entries Node.isDir).filter fun name =>
        !(current ++ [name]).any isHidden
      -- the walk goes on in what is left of `directory_names`
      let visibleDirectories := directoryNames.filter fun name =>
        !(entries.lookup name).any Node.isSymlink
      let fileNames := (sortedEntryNames entries fun node => !node.isDir).filter fun name =>
        !skipArchiveFile (current ++ [name])
      directoryNames.flatMap (addEntry current entries) ++
        fileNames.flatMap (addEntry current entries) ++
        visibleDirectories.flatMap fun name => (written.lookup name).getD []
  | _ => []

def writtenBelow (current : List String) : List (String × Node) → List (String × List ArchiveEntry)
  | [] => []
  | (name, node) :: rest =>
      (name, writeArchiveEntries (current ++ [name]) node) :: writtenBelow current rest

end

end Walk

def templateArchiveLimit : Nat := 2 ^ 20

section Archive
variable (tar : List ArchiveEntry → Option Bytes)

/-- `archive_template_directory`. The source is absent when the path is not a directory. -/
def archiveTemplateDirectory (source : Option (List (String × Node))) : Except String Bytes :=
  match source with
  | none => throw "Template source_path is not a directory"
  | some entries =>
      if !entries.any fun entry => entry.2.isFile && [".tf", ".tf.json"].any fun ending =>
          decide (ending.toList <:+ entry.1.toList) then
        throw "Template source_path has no root Terraform files"
      else
        match tar (writeArchiveEntries [] (.directory entries)) with
        | none => throw "Template archive could not be created"
        | some content =>
            if templateArchiveLimit < content.length then
              throw "Template archive exceeds the 1 MiB limit"
            else pure content

end Archive
end TemplateSource
end CoderManager
