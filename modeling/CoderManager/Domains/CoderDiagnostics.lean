import CoderManager.Domains.CoderClient
import CoderManager.Lib.Redaction
import Mathlib.Algebra.Order.Ring.Nat
import Mathlib.Data.List.Sort

/-!
# Diagnostics of a template import

What a failed import says is shown to the operator: one message, and the tail of the
provisioner's log. Known secret values are redacted from both.
-/
namespace CoderManager
namespace CoderClient

def templateImportErrorMaxChars : Nat := 4096
def templateImportLogMaxChars : Nat := 8192
def templateImportLogMaxEntries : Nat := 50

/-- `str.isspace`, of one character. -/
def isSpace (x : Char) : Bool :=
  let n := x.toNat
  (9 ≤ n && n ≤ 13) || (28 ≤ n && n ≤ 32) || n == 0x85 || n == 0xA0 || n == 0x1680 ||
    (0x2000 ≤ n && n ≤ 0x200A) || n == 0x2028 || n == 0x2029 || n == 0x202F || n == 0x205F ||
    n == 0x3000

/-- `" ".join(value.split())`. -/
def collapsed (value : String) : String := .ofList (Texts.collapse isSpace ' ' value.toList)

/-- `sorted(filter(None, sensitive_values), key=len, reverse=True)`. -/
def longestFirst (sensitiveValues : List String) : List String :=
  (sensitiveValues.filter (· ≠ "")).insertionSort fun a b => b.length ≤ a.length

/-- `value[: stop]`, where `stop` is `limit - 3`: a negative one counts from the end. -/
def cutAt (value : String) (limit : Nat) : String :=
  .ofList (value.toList.take (if 3 ≤ limit then limit - 3 else value.length - (3 - limit)))

def sanitizeDiagnostic (value : String) (sensitiveValues : List String) (maxChars : Nat) :
    String × Bool :=
  let sanitized := (longestFirst sensitiveValues).foldl
    (fun sanitized sensitive => Texts.replace sanitized sensitive "<redacted>") (collapsed value)
  if maxChars < sanitized.length then (cutAt sanitized maxChars ++ "...", true)
  else (sanitized, false)

def logEntryText (entry : Json) : Option String := do
  let level ← entry.text "log_level"
  let stage ← entry.text "stage"
  let output ← entry.text "output"
  return "[" ++ stage ++ "] [" ++ level ++ "] " ++ output

def dropUntilFits (maxChars : Nat) : List String → List String × Bool
  | [] => ([], false)
  | line :: rest =>
      if maxChars < ((line :: rest).map fun line => line.length + 1).sum then
        ((dropUntilFits maxChars rest).1, true)
      else (line :: rest, false)

def templateVersionLogs (versionId : UUID) (response : Response) (sensitiveValues : List String) :
    Except WorkerError (List String × Bool) := do
  let path := "api/v2/templateversions/" ++ toString versionId ++ "/logs"
  raiseForResponse response "GET" path 200
  let payload ← jsonArray response path
  let last := payload.drop (payload.length - templateImportLogMaxEntries)
  let rendered := (last.filterMap logEntryText).map fun text =>
    (sanitizeDiagnostic text sensitiveValues templateImportLogMaxChars).1
  let (lines, dropped) := dropUntilFits templateImportLogMaxChars rendered
  return (lines, templateImportLogMaxEntries < payload.length || dropped)

end CoderClient
end CoderManager
