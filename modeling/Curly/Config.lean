import Curly.Document
import Curly.Severity

/-!
# Settings

What an engine is told to do where templates leave it open, and how settings
are read from a document.
-/

namespace Curly

inductive Unresolved where
  | empty
  /-- The text, with the last segment of the path in the place of each `{0}`. -/
  | format (text : String)
  | throw
deriving DecidableEq, Repr

structure Config where
  unresolved : Unresolved := .empty
  /-- Messages of templates that matter less are dropped. -/
  logLevel : Option Severity := some .info
  /-- Whether nothing is rendered for a template that is not found, instead of
  failing. -/
  tolerateMissing : Bool := false
  recursionLimit : Nat := 64
deriving DecidableEq, Repr

instance : Inhabited Config := ⟨{}⟩

namespace Config

/-! ## Reading -/

def unresolvedOf? : Document → Option Unresolved
  | .string "empty" | .object [("empty", .null)] => some .empty
  | .string "throw" | .object [("throw", .null)] => some .throw
  | .object [("format", .string text)] => some (.format text)
  | _ => none

def logLevelOf? : Document → Option (Option Severity)
  | .string name | .object [(name, .null)] => threshold? name
  | _ => none

def tolerateMissingOf? : Document → Option Bool
  | .bool b => some b
  | _ => none

def recursionLimitOf? : Document → Option Nat
  | .number (.natural n) => some n.toNat
  | _ => none

/-- Reads a setting if it is given. -/
def setting {α : Type} (read : Document → Option α) (default : α) : Option Document → Option α
  | none => some default
  | some d => read d

def ofSettings (unresolved logLevel tolerateMissing recursionLimit : Option Document) :
    Option Config := do
  let standard : Config := {}
  return {
    unresolved := ← setting unresolvedOf? standard.unresolved unresolved
    logLevel := ← setting logLevelOf? standard.logLevel logLevel
    tolerateMissing := ← setting tolerateMissingOf? standard.tolerateMissing tolerateMissing
    recursionLimit := ← setting recursionLimitOf? standard.recursionLimit recursionLimit }

/-- Reads settings from an object by their names, unknown ones aside, or from
an array by their places. -/
def ofDocument? : Document → Option Config
  | .object members =>
    ofSettings (valueAt "unresolved" members) (valueAt "log_level" members)
      (valueAt "tolerate_missing_partials" members) (valueAt "recursion_limit" members)
  | .array items =>
    if items.length ≤ 4 then ofSettings items[0]? items[1]? items[2]? items[3]? else none
  | _ => none

/-! ## Formats -/

/-- The format with the name in the place of each `{0}`. -/
def fillIn (name : List Char) : List Char → List Char
  | '{' :: '0' :: '}' :: cs => name ++ fillIn name cs
  | c :: cs => c :: fillIn name cs
  | [] => []

def filled (format name : String) : String :=
  String.ofList (fillIn name.toList format.toList)

end Config

end Curly
