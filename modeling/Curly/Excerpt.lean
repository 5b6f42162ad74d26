import Curly.Region
import Curly.Text.Width

/-!
# Excerpts

The line of a source that a message shows, and the part of it that is marked.
Lines and columns count from zero, columns and lengths in display width.
-/

namespace Curly

structure Excerpt where
  line : Nat
  column : Nat
  /-- How much is marked, at least one column. -/
  length : Nat
  text : String
deriving DecidableEq, Repr

namespace Excerpt

/-- The lines of a text without their newlines. A newline at the end begins no
further line. -/
def lines : List Char → List (List Char)
  | [] => []
  | c :: cs =>
    if c = '\n' then [] :: lines cs
    else
      match lines cs with
      | [] => [[c]]
      | l :: ls => (c :: l) :: ls

def firstLine (text : List Char) : List Char :=
  text.takeWhile (· ≠ '\n')

def withoutReturns (text : List Char) : List Char :=
  (text.reverse.dropWhile (· = '\r')).reverse

/-! ## Places

Columns and lengths are given for any measure of width.
-/

section
variable (width : List Char → Nat)

/-- Line and column of a byte offset. An offset that cuts a character is shown
behind its line, one beyond the text behind the last line. -/
def locate : List (List Char) → Nat → Nat × Nat
  | [], _ => (0, 0)
  | l :: ls, offset =>
    if offset < byteLength l + 1 then (0, width ((takeBytes? offset l).getD l))
    else if ls.isEmpty then (0, width l)
    else
      let (line, column) := locate ls (offset - (byteLength l + 1))
      (line + 1, column)

/-- The excerpt that shows a region, which may reach past the source. -/
def measured (source : List Char) (region : Region) : Excerpt :=
  let size := byteLength source
  let start := min region.start size
  let stop := max start (min region.stop size)
  let ls := lines source
  let (line, column) := locate width ls start
  { line := line
    column := column
    length := max 1 (width (firstLine (Region.slice ⟨start, stop⟩ source)))
    text := String.ofList (withoutReturns (ls.getD line (ls.getLastD []))) }

end

/-- The excerpt that shows a region, measured as it is displayed. -/
def ofSource (source : List Char) (region : Region) : Excerpt :=
  measured Text.width source region

/-! ## Display -/

def blanks (n : Nat) : String :=
  String.ofList (List.replicate n ' ')

def yellow : String := "\x1b[33m"

def red : String := "\x1b[31m"

def plain : String := "\x1b[0m"

/-- The excerpt under the name of its template, with the mark below the line
and a help text below that. -/
def display (e : Excerpt) (name help : Option String) : String :=
  let number := toString (e.line + 1)
  let pad := blanks number.length
  let mark := String.ofList (List.replicate e.length '^')
  let rest := String.ofList (List.replicate (3 - e.length) '-')
  "\n " ++ pad ++ "--> " ++ name.getD "?" ++ ":" ++ number ++ ":" ++ toString (e.column + 1) ++
    "\n " ++ pad ++ " |" ++
    "\n " ++ number ++ " | " ++ e.text ++
    "\n " ++ pad ++ " | " ++ yellow ++ blanks e.column ++ mark ++ plain ++ rest ++
    "\n " ++ pad ++ " |\n" ++
    match help with
    | some text => pad ++ " = help: " ++ text ++ "\n"
    | none => ""

end Excerpt

end Curly
